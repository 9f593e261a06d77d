import CampusQuest.TalentService
import CampusQuest.Runs

/-!
The talent profiles as a system: the commands of the owners, the uploads and the checks of the
files as transactions in any order. The rest of the application changes accounts, tags and the
moderation, and files further receipts.
-/

namespace CampusQuest.Innovation

open Guards Tables Runs
open Lifecycle (Account UserStatus)

section Effects

inductive TalentEffect (db : TalentDb) (now : Instant) (row : TalentProfile)
    (revisionId : RevisionId) : TalentCommand → TalentDb → TalentProfile → Prop
  | saved (fields : TalentFields) :
      TalentEffect db now row revisionId (.save fields) db { row with fields := fields }
  | published (tags : List (TagId × Text)) :
      TalentEffect db now row revisionId .publish
        (db.writeRevision now row revisionId row.fields.content tags row.fields.contacts).1
        { (db.writeRevision now row revisionId row.fields.content tags row.fields.contacts).2 with
          visible := true }
  | hidden (hvisible : row.visible = true) :
      TalentEffect db now row revisionId .hide db
        { row with visible := false, publicVersion := row.publicVersion + 1 }
  | revoked {channel : ContactChannel} {revision : TalentRevision}
      (hrevision : db.publicRevision row = some revision) :
      TalentEffect db now row revisionId (.revokeContact channel)
        (db.writeRevision now { row with fields := row.fields.withoutChannel channel } revisionId
          revision.content revision.tags
          (revision.contacts.filter fun c => c.channel ≠ channel)).1
        (db.writeRevision now { row with fields := row.fields.withoutChannel channel } revisionId
          revision.content revision.tags
          (revision.contacts.filter fun c => c.channel ≠ channel)).2
  | removed {fileId : TalentFileId} {file : TalentFile} (hfile : db.files.get fileId = some file) :
      TalentEffect db now row revisionId (.removeFile fileId)
        (db.putFile fileId
          { file with
            removedAt := some now
            state := file.state.interrupted
            version := file.version + 1 })
        { row with fields := row.fields.withoutFile fileId }
  | withdrawn {fileId : TalentFileId} {file : TalentFile} {revision : TalentRevision}
      (hfile : db.files.get fileId = some file)
      (hrevision : db.publicRevision row = some revision) :
      TalentEffect db now row revisionId (.revokeFile fileId)
        ((db.putFile fileId
          { file with
            revokedAt := some now
            state := file.state.interrupted
            version := file.version + 1 }).writeRevision now
          { row with fields := row.fields.withoutFile fileId } revisionId
          (revision.content.withoutFile fileId) revision.tags revision.contacts).1
        ((db.putFile fileId
          { file with
            revokedAt := some now
            state := file.state.interrupted
            version := file.version + 1 }).writeRevision now
          { row with fields := row.fields.withoutFile fileId } revisionId
          (revision.content.withoutFile fileId) revision.tags revision.contacts).2

variable {digests : TalentDigests} {db db' : TalentDb} {now : Instant} {actor : Actor}
  {row row' : TalentProfile} {revisionId : RevisionId} {id : ProfileId} {command : TalentCommand}
  {payload : TalentPayload} {receipt : TalentActionReceipt} {replayed : Bool}

theorem lockFile_ok {fileId : TalentFileId} {file : TalentFile}
    (h : db.lockFile id fileId = .ok file) : db.files.get fileId = some file :=
  (Option.filter_eq_some_iff.mp (orRefuse_ok.mp h)).1

theorem talent_effect (h : db.effect now row revisionId command = .ok (db', row')) :
    TalentEffect db now row revisionId command db' row' := by
  cases command with
  | save fields =>
    obtain ⟨_, _, h⟩ := bind_ok.mp h
    cases h
    exact .saved fields
  | publish =>
    obtain ⟨_, h⟩ := ensure_bind_ok.mp h
    obtain ⟨⟨db₁, row₁⟩, hreplace, h⟩ := bind_ok.mp h
    cases h
    obtain ⟨_, hreplace⟩ := ensure_bind_ok.mp hreplace
    obtain ⟨_, _, hreplace⟩ := bind_ok.mp hreplace
    obtain ⟨_, hreplace⟩ := ensure_bind_ok.mp hreplace
    cases hreplace
    exact .published _
  | hide =>
    obtain ⟨hvisible, h⟩ := ensure_bind_ok.mp h
    cases h
    exact .hidden hvisible
  | revokeContact channel =>
    obtain ⟨revision, hrevision, h⟩ := orRefuse_bind_ok.mp h
    cases h
    exact .revoked (Option.filter_eq_some_iff.mp hrevision).1
  | removeFile fileId =>
    obtain ⟨file, hfile, h⟩ := bind_ok.mp h
    obtain ⟨_, h⟩ := ensure_bind_ok.mp h
    cases h
    exact .removed (lockFile_ok hfile)
  | revokeFile fileId =>
    obtain ⟨file, hfile, h⟩ := bind_ok.mp h
    obtain ⟨revision, hrevision, h⟩ := orRefuse_bind_ok.mp h
    cases h
    exact .withdrawn (lockFile_ok hfile) (Option.filter_eq_some_iff.mp hrevision).1

theorem TalentEffect.version (h : TalentEffect db now row revisionId command db' row') :
    row'.version = row.version ∧ row'.id = row.id := by
  cases h <;> exact ⟨rfl, rfl⟩

theorem TalentEffect.tables (h : TalentEffect db now row revisionId command db' row') :
    db'.profiles = db.profiles ∧ db'.receipts = db.receipts := by
  cases h <;> exact ⟨rfl, rfl⟩

inductive TalentRun (digests : TalentDigests) (db : TalentDb) (now : Instant) (actor : Actor)
    (payload : TalentPayload) (revisionId : RevisionId) (id : ProfileId) :
    TalentDb → TalentActionReceipt → Bool → Prop
  | replayed {receipt : TalentActionReceipt}
      (hknown : db.receipts.get (actor.userId, payload.requestId) = some receipt)
      (hsame : receipt.fingerprint = digests.payload payload) :
      TalentRun digests db now actor payload revisionId id db receipt true
  | first {fields : TalentFields} (hcommand : payload.command = .save fields)
      (hrow : db.profiles.get actor.userId = none) (hversion : payload.version = 0)
      (hnew : db.receipts.get (actor.userId, payload.requestId) = none) :
      TalentRun digests db now actor payload revisionId id
        (db.finish digests now actor (TalentDb.newProfile now id fields) payload)
        (TalentDb.newReceipt digests now (TalentDb.newProfile now id fields) payload) false
  | effective {row row' : TalentProfile} {db' : TalentDb}
      (hrow : db.profiles.get actor.userId = some row) (hversion : payload.version = row.version)
      (hnew : db.receipts.get (actor.userId, payload.requestId) = none)
      (heffect : TalentEffect db now row revisionId payload.command db' row') :
      TalentRun digests db now actor payload revisionId id
        (db'.finish digests now actor (TalentDb.bump now row') payload)
        (TalentDb.newReceipt digests now (TalentDb.bump now row') payload) false

theorem act_ok (h : db.act digests now actor payload revisionId = .ok (db', receipt, replayed)) :
    TalentRun digests db now actor payload revisionId id db' receipt replayed := by
  obtain ⟨row, hrow, h⟩ := bind_ok.mp h
  obtain ⟨_, _, hrow⟩ := bind_ok.mp hrow
  have hrow : db.profiles.get actor.userId = some row := orRefuse_ok.mp hrow
  obtain ⟨previous, hprevious, h⟩ := bind_ok.mp h
  obtain ⟨hsame, hprevious⟩ := ensure_bind_ok.mp hprevious
  cases hknown : db.receipts.get (actor.userId, payload.requestId) with
  | some found =>
    rw [hknown] at hprevious hsame
    cases hprevious
    cases h
    exact .replayed hknown (of_decide_eq_true hsame)
  | none =>
    rw [hknown] at hprevious
    cases hprevious
    obtain ⟨hversion, h⟩ := ensure_bind_ok.mp h
    obtain ⟨⟨db₁, row₁⟩, heffect, h⟩ := bind_ok.mp h
    cases h
    exact .effective hrow hversion.symm hknown (talent_effect heffect)

theorem talent_run (h : db.run digests now actor payload revisionId id =
      .ok (db', receipt, replayed)) :
    TalentRun digests db now actor payload revisionId id db' receipt replayed := by
  unfold TalentDb.run at h
  split at h
  next fields hrow hcommand =>
    obtain ⟨_, _, h⟩ := bind_ok.mp h
    obtain ⟨_, _, h⟩ := bind_ok.mp h
    obtain ⟨hversion, h⟩ := ensure_bind_ok.mp h
    obtain ⟨_, _, h⟩ := bind_ok.mp h
    obtain ⟨hnew, h⟩ := ensure_bind_ok.mp h
    cases h
    exact .first hcommand hrow hversion hnew
  next => exact act_ok h

end Effects

section System

structure TalentWorld where
  db : TalentDb
  now : Instant

inductive TalentCall
  | run (actor : Actor) (payload : TalentPayload) (revisionId : RevisionId) (id : ProfileId)
  | createIntent (actor : Actor) (payload : TalentFileIntentCreate) (fileId : TalentFileId)
      (objectKey : Text)
  | startCheck (actor : Actor) (fileId : TalentFileId) (token : CheckToken)
  | finishCheck (actor : Actor) (fileId : TalentFileId) (token : CheckToken)
      (outcome : CheckOutcome)

namespace TalentCall

def perform (digests : TalentDigests) (now : Instant) (db : TalentDb) :
    TalentCall → Except TalentError TalentDb
  | run actor payload revisionId id =>
    (db.run digests now actor payload revisionId id).map Prod.fst
  | createIntent actor payload fileId objectKey =>
    db.createIntent digests now actor payload fileId objectKey
  | startCheck actor fileId token => db.startCheck now actor fileId token
  | finishCheck actor fileId token outcome => db.finishCheck actor fileId token outcome

/-- The rows after a transaction; a refused one leaves nothing. -/
def after (digests : TalentDigests) (now : Instant) (db : TalentDb) (call : TalentCall) :
    TalentDb :=
  match call.perform digests now db with
  | .ok db' => db'
  | .error _ => db

/-- The ids of new rows were never drawn before. -/
def Fresh (db : TalentDb) : TalentCall → Prop
  | run actor _ revisionId id => db.revisions.get revisionId = none ∧
      (db.profiles.get actor.userId = none →
        ∀ owner row, db.profiles.get owner = some row → row.id ≠ id)
  | createIntent _ _ fileId _ => db.files.get fileId = none
  | startCheck _ _ _ | finishCheck _ _ _ _ => True

end TalentCall

structure TalentElsewhere (db db' : TalentDb) : Prop where
  revisions : db'.revisions = db.revisions
  files : db'.files = db.files
  links : db'.links = db.links
  receipts : ∀ k r, db.receipts.get k = some r → db'.receipts.get k = some r
  profiles : ∀ owner, ∃ takenDown, db'.profiles.get owner =
    (db.profiles.get owner).map fun row => { row with takenDown := takenDown }

inductive TalentStep (digests : TalentDigests) :
    TalentWorld → Option TalentCall → TalentWorld → Prop
  | call {w : TalentWorld} {now : Instant} (c : TalentCall) (hnow : w.now ≤ now)
      (hfresh : c.Fresh w.db) : TalentStep digests w (some c) ⟨c.after digests now w.db, now⟩
  | elsewhere {w : TalentWorld} {db : TalentDb} (h : TalentElsewhere w.db db) :
      TalentStep digests w none { w with db := db }

structure TalentWorld.Initial (w : TalentWorld) : Prop where
  profiles : w.db.profiles = .empty
  revisions : w.db.revisions = .empty
  receipts : w.db.receipts = .empty
  files : w.db.files = .empty
  links : w.db.links = .empty

def talentSystem (digests : TalentDigests) : System TalentWorld (Option TalentCall) where
  init := TalentWorld.Initial
  step := TalentStep digests

end System

section Inversion

inductive TalentChange (digests : TalentDigests) (now : Instant) (db : TalentDb) :
    TalentCall → TalentDb → Prop
  | nothing (call : TalentCall) : TalentChange digests now db call db
  | ran {actor : Actor} {payload : TalentPayload} {revisionId : RevisionId} {id : ProfileId}
      {db' : TalentDb} {receipt : TalentActionReceipt}
      (h : TalentRun digests db now actor payload revisionId id db' receipt false) :
      TalentChange digests now db (.run actor payload revisionId id) db'
  | uploaded {actor : Actor} {payload : TalentFileIntentCreate} {fileId : TalentFileId}
      {objectKey : Text} {file : TalentFile} {receipt : TalentActionReceipt}
      (hnew : db.receipts.get (actor.userId, payload.requestId) = none) :
      TalentChange digests now db (.createIntent actor payload fileId objectKey)
        { db with
          files := db.files.put fileId file
          receipts := db.receipts.put (actor.userId, payload.requestId) receipt }
  | started {actor : Actor} {fileId : TalentFileId} {token : CheckToken} {file : TalentFile}
      (hfile : db.files.get fileId = some file) (hsettled : file.state.settled ≠ true) :
      TalentChange digests now db (.startCheck actor fileId token)
        (db.putFile fileId
          { file with
            state := .checking token now
            failureCode := none
            version := file.version + 1 })
  | checked {actor : Actor} {fileId : TalentFileId} {token : CheckToken}
      {outcome : CheckOutcome} {file : TalentFile} (hfile : db.files.get fileId = some file)
      (htoken : file.state.checkToken = some token) :
      TalentChange digests now db (.finishCheck actor fileId token outcome)
        (db.putFile fileId
          { file with
            state := TalentFileState.ofOutcome outcome
            failureCode := outcome.failureCode
            version := file.version + 1 })

variable {digests : TalentDigests} {now : Instant} {db db' : TalentDb}

theorem talent_change_ok {call : TalentCall} (h : call.perform digests now db = .ok db') :
    TalentChange digests now db call db' := by
  cases call with
  | run actor payload revisionId id =>
    change (db.run digests now actor payload revisionId id).map Prod.fst = .ok db' at h
    cases hrun : db.run digests now actor payload revisionId id with
    | error e =>
      rw [hrun] at h
      cases h
    | ok answer =>
      rw [hrun] at h
      obtain ⟨db₁, receipt, replayed⟩ := answer
      obtain rfl : db₁ = db' := Except.ok.inj h
      cases talent_run hrun with
      | replayed => exact .nothing _
      | first hcommand hrow hversion hnew => exact .ran (.first hcommand hrow hversion hnew)
      | effective hrow hversion hnew heffect => exact .ran (.effective hrow hversion hnew heffect)
  | createIntent actor payload fileId objectKey =>
    obtain ⟨profile, _, h⟩ := bind_ok.mp h
    obtain ⟨previous, hprevious, h⟩ := bind_ok.mp h
    obtain ⟨_, hprevious⟩ := ensure_bind_ok.mp hprevious
    cases hprevious
    split at h
    next =>
      obtain ⟨_, h⟩ := ensure_bind_ok.mp h
      obtain ⟨_, h⟩ := ensure_bind_ok.mp h
      obtain ⟨_, h⟩ := ensure_bind_ok.mp h
      cases h
      exact .nothing _
    next =>
      obtain ⟨hnew, h⟩ := ensure_bind_ok.mp h
      obtain ⟨_, h⟩ := ensure_bind_ok.mp h
      cases h
      exact .uploaded hnew
  | startCheck actor fileId token =>
    obtain ⟨profile, _, h⟩ := bind_ok.mp h
    obtain ⟨file, hfile, h⟩ := bind_ok.mp h
    obtain ⟨_, h⟩ := ensure_bind_ok.mp h
    split at h
    next =>
      cases h
      exact .nothing _
    next hsettled =>
      obtain ⟨_, h⟩ := ensure_bind_ok.mp h
      cases h
      exact .started (lockFile_ok hfile) hsettled
  | finishCheck actor fileId token outcome =>
    obtain ⟨profile, _, h⟩ := bind_ok.mp h
    obtain ⟨file, hfile, h⟩ := bind_ok.mp h
    obtain ⟨_, h⟩ := ensure_bind_ok.mp h
    obtain ⟨htoken, h⟩ := ensure_bind_ok.mp h
    cases h
    exact .checked (lockFile_ok hfile) htoken

theorem talent_change (call : TalentCall) :
    TalentChange digests now db call (call.after digests now db) := by
  unfold TalentCall.after
  cases h : call.perform digests now db with
  | error e => exact .nothing call
  | ok db' => exact talent_change_ok h

end Inversion

end CampusQuest.Innovation
