import CampusQuest.RecruitmentService
import CampusQuest.Runs

/-!
Recruitments as a system: the commands of the owners, the maintenance by the clock and the
delivery of reminders as transactions in any order, under a clock that never goes back. What the
rest of the application may change are the accounts, the qualifications, the moderation of a
recruitment and the state of a delivery that is not decided.
-/

namespace CampusQuest.Innovation

open Guards Tables Runs

section Effects

inductive Effect (db : RecruitmentDb) (now : Instant) (id : RecruitmentId) (row : RecruitmentDraft)
    (revision : RevisionId) (cycle : CycleId) :
    RecruitmentCommand → RecruitmentDb → RecruitmentDraft → Prop
  | updated (fields : RecruitmentFields) :
      Effect db now id row revision cycle (.update fields) db { row with fields := fields }
  | published {command : RecruitmentCommand} (hcommand : command = .publish ∨ command = .reopen)
      (hvalid : row.fields.validatePublication now = .ok ()) :
      Effect db now id row revision cycle command
        (db.putPublication now id row.fields revision)
        (RecruitmentDb.publishedRow now row (row.logicalStatus now ≠ .opened) revision cycle)
  | closed (hopen : row.logicalStatus now = .opened) :
      Effect db now id row revision cycle .close db { row with status := .closed }
  | confirmed (hopen : row.logicalStatus now = .opened) (hdeadline : row.deadlineAt = none) :
      Effect db now id row revision cycle .confirmActive db
        { row with
          cycleId := some cycle
          lastConfirmedAt := some now
          nextRemindAt := some (now + reminderPeriod) }
  | revoked {channel : ContactChannel} {closeIfLast : Bool} {rid : RevisionId}
      (hpublic : row.publicRevisionId = some rid)
      (hlive : ∃ c ∈ db.liveContacts rid, c.channel = channel) :
      Effect db now id row revision cycle (.revokeContact channel closeIfLast)
        (db.putRevocation now rid channel)
        { row with
          fields := row.fields.withoutChannel channel
          status := if (db.liveContacts rid).length = 1 then .closed else row.status }

variable {db db' : RecruitmentDb} {now : Instant} {actor : Actor} {projectId : ProjectId}
  {id : RecruitmentId} {row row' : RecruitmentDraft} {revision : RevisionId} {cycle : CycleId}
  {command : RecruitmentCommand} {digests : RecruitmentDigests}

theorem publishRevision_ok {newCycle : Bool}
    (h : db.publishRevision now id row newCycle revision cycle = .ok (db', row')) :
    row.fields.validatePublication now = .ok () ∧
      db' = db.putPublication now id row.fields revision ∧
      row' = RecruitmentDb.publishedRow now row newCycle revision cycle := by
  unfold RecruitmentDb.publishRevision at h
  split at h
  next => cases h
  next hvalid =>
    obtain ⟨rfl, rfl⟩ := Prod.mk.inj (Except.ok.inj h)
    exact ⟨hvalid, rfl, rfl⟩

theorem effect_ok (h : db.effect now actor id row revision cycle command = .ok (db', row')) :
    Effect db now id row revision cycle command db' row' := by
  cases command with
  | update fields =>
    cases h
    exact .updated fields
  | publish =>
    obtain ⟨_, h⟩ := ensure_bind_ok.mp h
    obtain ⟨_, h⟩ := ensure_bind_ok.mp h
    obtain ⟨_, h⟩ := ensure_bind_ok.mp h
    obtain ⟨hvalid, rfl, rfl⟩ := publishRevision_ok h
    exact .published (.inl rfl) hvalid
  | reopen =>
    obtain ⟨_, h⟩ := ensure_bind_ok.mp h
    obtain ⟨_, h⟩ := ensure_bind_ok.mp h
    obtain ⟨_, h⟩ := ensure_bind_ok.mp h
    obtain ⟨hvalid, rfl, rfl⟩ := publishRevision_ok h
    exact .published (.inr rfl) hvalid
  | close =>
    obtain ⟨hopen, h⟩ := ensure_bind_ok.mp h
    cases h
    exact .closed hopen
  | confirmActive =>
    obtain ⟨_, h⟩ := ensure_bind_ok.mp h
    obtain ⟨⟨hopen, hdeadline⟩, h⟩ := ensure_bind_ok.mp h
    cases h
    exact .confirmed hopen hdeadline
  | revokeContact channel closeIfLast =>
    obtain ⟨rid, hpublic, h⟩ := orRefuse_bind_ok.mp h
    obtain ⟨_, h⟩ := ensure_bind_ok.mp h
    cases h
    obtain ⟨hpublic, hany⟩ := Option.filter_eq_some_iff.mp hpublic
    have hcontacts : db.publicContacts row = db.liveContacts rid := by
      unfold RecruitmentDb.publicContacts
      rw [hpublic]
      rfl
    rw [hcontacts] at hany ⊢
    obtain ⟨c, hc, hchannel⟩ := List.any_eq_true.mp hany
    exact .revoked hpublic ⟨c, hc, of_decide_eq_true hchannel⟩

theorem Effect.version (h : Effect db now id row revision cycle command db' row') :
    row'.version = row.version := by
  cases h <;> rfl

theorem Effect.tables (h : Effect db now id row revision cycle command db' row') :
    db'.recruitments = db.recruitments ∧ db'.receipts = db.receipts ∧
      db'.reminders = db.reminders ∧ db'.projects = db.projects := by
  cases h <;> exact ⟨rfl, rfl, rfl, rfl⟩

theorem lockOwned_ok (h : db.lockOwned actor projectId id = .ok row) :
    db.recruitments.get id = some row := by
  obtain ⟨_, _, h⟩ := bind_ok.mp h
  exact (Option.filter_eq_some_iff.mp (orRefuse_ok.mp h)).1

/-- A command is answered from its receipt, or it is new and takes effect at the version it was
issued against. -/
theorem run_ok {payload : RecruitmentPayload} {receipt : RecruitmentReceipt} {replayed : Bool}
    (h : db.run digests now actor projectId id payload revision cycle =
      .ok (db', receipt, replayed)) :
    ∃ row, db.recruitments.get id = some row ∧
      (db.receipts.get (id, payload.requestId) = some receipt ∧
        receipt.fingerprint = digests.payload payload ∧ db' = db ∧ replayed = true ∨
      db.receipts.get (id, payload.requestId) = none ∧ payload.version = row.version ∧
        replayed = false ∧ receipt.fingerprint = digests.payload payload ∧
        receipt.appliedVersion = row.version + 1 ∧
        ∃ db₁ row₁, Effect db now id row revision cycle payload.command db₁ row₁ ∧
          db' = db₁.finish digests now id row₁ payload) := by
  obtain ⟨row, hrow, h⟩ := bind_ok.mp h
  obtain ⟨prior, hprior, h⟩ := bind_ok.mp h
  refine ⟨row, lockOwned_ok hrow, ?_⟩
  unfold RecruitmentDb.receipt at hprior
  cases hfound : db.receipts.get (id, payload.requestId) with
  | some found =>
    simp only [hfound] at hprior
    obtain ⟨hsame, hprior⟩ := ensure_bind_ok.mp hprior
    cases hprior
    cases h
    exact .inl ⟨rfl, hsame, rfl, rfl⟩
  | none =>
    simp only [hfound] at hprior
    obtain ⟨hversion, hprior⟩ := ensure_bind_ok.mp hprior
    cases hprior
    obtain ⟨⟨db₁, row₁⟩, heffect, h⟩ := bind_ok.mp h
    have heffect := effect_ok heffect
    cases h
    refine .inr ⟨rfl, hversion, rfl, rfl, ?_, db₁, row₁, heffect, rfl⟩
    rw [heffect.version]

end Effects

section System

structure RecruitmentWorld where
  db : RecruitmentDb
  now : Instant
  /-- The cycles that were drawn. -/
  cycles : Table CycleId Unit

inductive RecruitmentCall
  | create (actor : Actor) (projectId : ProjectId) (requestId : RequestId)
      (fields : RecruitmentFields) (id : RecruitmentId)
  | run (actor : Actor) (projectId : ProjectId) (id : RecruitmentId)
      (payload : RecruitmentPayload) (revision : RevisionId) (cycle : CycleId)
  | expireIfDue (id : RecruitmentId)
  | remindIfDue (id : RecruitmentId) (delivery : DeliveryId)
  | claimReminder (delivery : DeliveryId)
  | skipReminder (delivery : DeliveryId)
  | finalizeReminder (delivery : DeliveryId)

namespace RecruitmentCall

/-- The rows after a transaction; a refused command leaves nothing. -/
def after (digests : RecruitmentDigests) (now : Instant) (db : RecruitmentDb) :
    RecruitmentCall → RecruitmentDb
  | create actor projectId requestId fields id =>
    match db.create digests now actor projectId requestId fields id with
    | .ok db' => db'
    | .error _ => db
  | run actor projectId id payload revision cycle =>
    match db.run digests now actor projectId id payload revision cycle with
    | .ok answer => answer.1
    | .error _ => db
  | expireIfDue id => db.expireIfDue now id
  | remindIfDue id delivery => db.remindIfDue now id delivery
  | claimReminder delivery => db.claimReminder delivery
  | skipReminder delivery => db.skipReminder delivery
  | finalizeReminder delivery => db.finalizeReminder now delivery

/-- The ids of new rows and the new cycles were never drawn before. -/
def Fresh (w : RecruitmentWorld) : RecruitmentCall → Prop
  | create _ _ _ _ id => w.db.recruitments.get id = none
  | run _ _ _ _ revision cycle => w.db.revisions.get revision = none ∧ w.cycles.get cycle = none
  | remindIfDue _ delivery => w.db.reminders.get delivery = none
  | _ => True

def drawn (cycles : Table CycleId Unit) : RecruitmentCall → Table CycleId Unit
  | run _ _ _ _ _ cycle => cycles.put cycle ()
  | _ => cycles

end RecruitmentCall

def ReminderDelivery.RealSend (r : ReminderDelivery) : Prop :=
  r.status = .sent ∧ r.skipped = false

structure RecruitmentElsewhere (db db' : RecruitmentDb) : Prop where
  revisions : db'.revisions = db.revisions
  contacts : db'.contacts = db.contacts
  receipts : db'.receipts = db.receipts
  projects : ∀ id p, db.projects.get id = some p →
    ∃ p', db'.projects.get id = some p' ∧ p'.ownerUserId = p.ownerUserId
  recruitments : ∀ id, ∃ takenDown, db'.recruitments.get id =
    (db.recruitments.get id).map fun row => { row with takenDown := takenDown }
  reminders : ∀ id, ∃ status skipped, db'.reminders.get id =
    (db.reminders.get id).map fun r => { r with status := status, skipped := skipped }
  decided : ∀ id r r', db.reminders.get id = some r → db'.reminders.get id = some r' →
    r'.RealSend → r.RealSend

inductive RecruitmentStep (digests : RecruitmentDigests) :
    RecruitmentWorld → Option RecruitmentCall → RecruitmentWorld → Prop
  | call {w : RecruitmentWorld} {now : Instant} (c : RecruitmentCall) (hnow : w.now ≤ now)
      (hfresh : c.Fresh w) :
      RecruitmentStep digests w (some c) ⟨c.after digests now w.db, now, c.drawn w.cycles⟩
  | elsewhere {w : RecruitmentWorld} {db : RecruitmentDb} (h : RecruitmentElsewhere w.db db) :
      RecruitmentStep digests w none { w with db := db }

structure RecruitmentWorld.Initial (w : RecruitmentWorld) : Prop where
  recruitments : w.db.recruitments = .empty
  revisions : w.db.revisions = .empty
  contacts : w.db.contacts = .empty
  receipts : w.db.receipts = .empty
  reminders : w.db.reminders = .empty
  cycles : w.cycles = .empty

def recruitmentSystem (digests : RecruitmentDigests) :
    System RecruitmentWorld (Option RecruitmentCall) where
  init := RecruitmentWorld.Initial
  step := RecruitmentStep digests

end System

section Inversion

inductive RecruitmentChange (digests : RecruitmentDigests) (now : Instant) (db : RecruitmentDb) :
    RecruitmentCall → RecruitmentDb → Prop
  | nothing (call : RecruitmentCall) : RecruitmentChange digests now db call db
  | created {actor : Actor} {projectId : ProjectId} {requestId : RequestId}
      {fields : RecruitmentFields} {id : RecruitmentId} :
      RecruitmentChange digests now db (.create actor projectId requestId fields id)
        (db.putRow id (RecruitmentDb.newDraft digests now projectId requestId fields))
  | ran {actor : Actor} {projectId : ProjectId} {id : RecruitmentId} {payload : RecruitmentPayload}
      {revision : RevisionId} {cycle : CycleId} {row row₁ : RecruitmentDraft}
      {db₁ : RecruitmentDb} (hrow : db.recruitments.get id = some row)
      (hnew : db.receipts.get (id, payload.requestId) = none)
      (hversion : payload.version = row.version)
      (heffect : Effect db now id row revision cycle payload.command db₁ row₁) :
      RecruitmentChange digests now db (.run actor projectId id payload revision cycle)
        (db₁.finish digests now id row₁ payload)
  | expired {id : RecruitmentId} {row : RecruitmentDraft}
      (hrow : db.recruitments.get id = some row) (hopen : row.status = .opened)
      (hdue : row.deadlineAt.any (fun d => d ≤ now) = true) :
      RecruitmentChange digests now db (.expireIfDue id)
        (db.putRow id
          { row with status := .expired, version := row.version + 1, updatedAt := now })
  | reminded {id : RecruitmentId} {delivery : DeliveryId} {row : RecruitmentDraft}
      {project : ProjectDraft} {cycle : CycleId} {due : Instant}
      (hrow : db.recruitments.get id = some row) (hcycle : row.cycleId = some cycle)
      (hdue : row.nextRemindAt = some due) (hdeadline : row.deadlineAt = none) (hpast : due ≤ now)
      (hvisible : db.Visible now row) (hproject : db.projects.get row.projectId = some project) :
      RecruitmentChange digests now db (.remindIfDue id delivery)
        ((db.recordReminder delivery
          { recruitmentId := id
            cycleId := cycle
            dueAt := due
            userId := project.ownerUserId
            status := .pending
            skipped := false }).putRow id
          { row with
            nextRemindAt := some (nextReminderDue due now)
            version := row.version + 1
            updatedAt := now })
  | claimed {delivery : DeliveryId} {r : ReminderDelivery}
      (hr : db.reminders.get delivery = some r) :
      RecruitmentChange digests now db (.claimReminder delivery)
        (db.putReminder delivery { r with status := .sending })
  | skipped {delivery : DeliveryId} {r : ReminderDelivery}
      (hr : db.reminders.get delivery = some r) :
      RecruitmentChange digests now db (.skipReminder delivery)
        (db.putReminder delivery { r with status := .sent, skipped := true })
  | finalized {delivery : DeliveryId} {r : ReminderDelivery}
      (hr : db.reminders.get delivery = some r) :
      RecruitmentChange digests now db (.finalizeReminder delivery)
        (db.putReminder delivery
          { r with
            status := .sent
            skipped := !db.lockCurrentReminder now r.recruitmentId r.cycleId })

variable {digests : RecruitmentDigests} {now : Instant} {db : RecruitmentDb}

theorem dueReminder_eq {row : RecruitmentDraft} {cycle : CycleId} {due : Instant}
    (h : db.dueReminder now row = some (cycle, due)) :
    row.cycleId = some cycle ∧ row.nextRemindAt = some due ∧ row.deadlineAt = none ∧ due ≤ now ∧
      db.Visible now row := by
  unfold RecruitmentDb.dueReminder at h
  split at h
  next cycle' due' hcycle hdue =>
    split at h
    next hok =>
      obtain ⟨rfl, rfl⟩ := Prod.mk.inj (Option.some.inj h)
      exact ⟨hcycle, hdue, hok⟩
    next => cases h
  next => cases h

theorem recruitment_change (call : RecruitmentCall) :
    RecruitmentChange digests now db call (call.after digests now db) := by
  cases call with
  | create actor projectId requestId fields id =>
    cases hcreate : db.create digests now actor projectId requestId fields id with
    | error e =>
      simp only [RecruitmentCall.after, hcreate]
      exact .nothing _
    | ok db' =>
      simp only [RecruitmentCall.after, hcreate]
      obtain ⟨_, _, h⟩ := bind_ok.mp hcreate
      split at h
      next =>
        obtain ⟨_, h⟩ := ensure_bind_ok.mp h
        cases h
        exact .nothing _
      next =>
        cases h
        exact .created
  | run actor projectId id payload revision cycle =>
    cases hrun : db.run digests now actor projectId id payload revision cycle with
    | error e =>
      simp only [RecruitmentCall.after, hrun]
      exact .nothing _
    | ok answer =>
      simp only [RecruitmentCall.after, hrun]
      obtain ⟨db', receipt, replayed⟩ := answer
      obtain ⟨row, hrow, ⟨_, _, rfl, _⟩ | ⟨hnew, hversion, _, _, _, db₁, row₁, heffect, rfl⟩⟩ :=
        run_ok hrun
      · exact .nothing _
      · exact .ran hrow hnew hversion heffect
  | expireIfDue id =>
    simp only [RecruitmentCall.after, RecruitmentDb.expireIfDue]
    split
    next => exact .nothing _
    next row hrow =>
      split
      next hdue => exact .expired hrow hdue.1 hdue.2
      next => exact .nothing _
  | remindIfDue id delivery =>
    simp only [RecruitmentCall.after, RecruitmentDb.remindIfDue]
    split
    next => exact .nothing _
    next row hrow =>
      split
      next cycle due project hdue hproject =>
        obtain ⟨hcycle, hnext, hdeadline, hpast, hvisible⟩ := dueReminder_eq hdue
        exact .reminded hrow hcycle hnext hdeadline hpast hvisible hproject
      next => exact .nothing _
  | claimReminder delivery =>
    simp only [RecruitmentCall.after, RecruitmentDb.claimReminder]
    split
    next => exact .nothing _
    next r hr =>
      split
      · exact .nothing _
      · exact .claimed hr
  | skipReminder delivery =>
    simp only [RecruitmentCall.after, RecruitmentDb.skipReminder]
    split
    next => exact .nothing _
    next r hr =>
      split
      · exact .skipped hr
      · exact .nothing _
  | finalizeReminder delivery =>
    simp only [RecruitmentCall.after, RecruitmentDb.finalizeReminder]
    split
    next => exact .nothing _
    next r hr =>
      split
      · exact .finalized hr
      · exact .nothing _

theorem recordReminder_tables {delivery : DeliveryId} {r : ReminderDelivery} :
    (db.recordReminder delivery r).recruitments = db.recruitments ∧
      (db.recordReminder delivery r).revisions = db.revisions ∧
      (db.recordReminder delivery r).contacts = db.contacts ∧
      (db.recordReminder delivery r).receipts = db.receipts := by
  unfold RecruitmentDb.recordReminder
  split <;> exact ⟨rfl, rfl, rfl, rfl⟩

end Inversion

end CampusQuest.Innovation
