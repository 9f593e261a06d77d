import CampusQuest.TalentSystem
import CampusQuest.RecruitmentVisibility

/-!
The public version of a talent profile as a fence. It rises with whatever the campus sees of the
profile, so reads that name one version are of one revision; a contact or a profile that was
withdrawn comes back with a publication only, a file never does, and the digest of a file that
is READY never changes.
-/

namespace CampusQuest.Innovation

open Guards Tables Runs
open Lifecycle (Account UserStatus)

section Profiles

variable {digests : TalentDigests} {db db' : TalentDb} {now : Instant} {w w' : TalentWorld}
  {owner : UserId} {row row' row'' : TalentProfile} {revisionId rid : RevisionId}
  {command : TalentCommand} {r : TalentRevision}

/-- What the campus sees of a profile changes under a greater public version only. -/
def TalentProfile.Fences (row row' : TalentProfile) : Prop :=
  row.publicVersion < row'.publicVersion ∨
    row'.publicVersion = row.publicVersion ∧ row'.visible = row.visible ∧
      row'.publicRevisionId = row.publicRevisionId

theorem TalentProfile.Fences.refl (row : TalentProfile) : row.Fences row :=
  .inr ⟨rfl, rfl, rfl⟩

theorem TalentProfile.Fences.trans (h : row.Fences row') (h' : row'.Fences row'') :
    row.Fences row'' := by
  rcases h with hlt | ⟨hversion, hvisible, hpublic⟩
  · rcases h' with hlt' | ⟨hversion', _⟩
    · exact .inl (hlt.trans hlt')
    · exact .inl (hversion' ▸ hlt)
  · rcases h' with hlt' | ⟨hversion', hvisible', hpublic'⟩
    · exact .inl (hversion ▸ hlt')
    · exact .inr ⟨hversion'.trans hversion, hvisible'.trans hvisible, hpublic'.trans hpublic⟩

theorem TalentProfile.Fences.le (h : row.Fences row') : row.publicVersion ≤ row'.publicVersion := by
  rcases h with hlt | ⟨hversion, _⟩
  · exact hlt.le
  · exact hversion.ge

theorem TalentEffect.fences (h : TalentEffect db now row revisionId command db' row') :
    row.Fences row' := by
  cases h with
  | saved => exact .inr ⟨rfl, rfl, rfl⟩
  | published => exact .inl (Nat.lt_succ_self _)
  | hidden => exact .inl (Nat.lt_succ_self _)
  | revoked => exact .inl (Nat.lt_succ_self _)
  | removed => exact .inr ⟨rfl, rfl, rfl⟩
  | withdrawn => exact .inl (Nat.lt_succ_self _)

/-- A revision is never rewritten. -/
theorem TalentEffect.revision (h : TalentEffect db now row revisionId command db' row')
    (hfresh : db.revisions.get revisionId = none) (hr : db.revisions.get rid = some r) :
    db'.revisions.get rid = some r := by
  have hne : rid ≠ revisionId := by
    rintro rfl
    rw [hfresh] at hr
    cases hr
  cases h with
  | published => exact (Table.get_put_of_ne _ _ hne).trans hr
  | revoked => exact (Table.get_put_of_ne _ _ hne).trans hr
  | withdrawn => exact (Table.get_put_of_ne _ _ hne).trans hr
  | _ => exact hr

theorem TalentEffect.public (h : TalentEffect db now row revisionId command db' row') :
    row'.publicRevisionId = row.publicRevisionId ∨
      row'.publicRevisionId = some revisionId ∧ ∃ r, db'.revisions.get revisionId = some r := by
  cases h with
  | published => exact .inr ⟨rfl, _, Table.get_put_self _ _ _⟩
  | revoked => exact .inr ⟨rfl, _, Table.get_put_self _ _ _⟩
  | withdrawn => exact .inr ⟨rfl, _, Table.get_put_self _ _ _⟩
  | _ => exact .inl rfl

inductive ProfileChange (digests : TalentDigests) (w : TalentWorld) (owner : UserId)
    (row : TalentProfile) : Option TalentCall → TalentDb → TalentProfile → Prop
  | same {call : Option TalentCall} {db' : TalentDb} {row' : TalentProfile}
      (hrow : row' = { row with takenDown := row'.takenDown }) :
      ProfileChange digests w owner row call db' row'
  | effective {actor : Actor} {payload : TalentPayload} {revisionId : RevisionId}
      {id : ProfileId} {now : Instant} {row₁ : TalentProfile} {db₁ : TalentDb}
      (howner : actor.userId = owner) (hfresh : w.db.revisions.get revisionId = none)
      (hnew : w.db.receipts.get (owner, payload.requestId) = none)
      (heffect : TalentEffect w.db now row revisionId payload.command db₁ row₁) :
      ProfileChange digests w owner row (some (.run actor payload revisionId id))
        (db₁.finish digests now actor (TalentDb.bump now row₁) payload) (TalentDb.bump now row₁)

theorem profile_change {call : Option TalentCall} (hstep : TalentStep digests w call w')
    (hrow : w.db.profiles.get owner = some row) :
    ∃ row', w'.db.profiles.get owner = some row' ∧
      ProfileChange digests w owner row call w'.db row' := by
  cases hstep with
  | elsewhere h =>
    obtain ⟨takenDown, heq⟩ := h.profiles owner
    rw [hrow] at heq
    exact ⟨_, heq, .same rfl⟩
  | @call now call hnow hfresh =>
    have hchange : TalentChange digests now w.db call (call.after digests now w.db) :=
      talent_change call
    dsimp only
    generalize call.after digests now w.db = db' at hchange
    cases hchange with
    | nothing => exact ⟨row, hrow, .same rfl⟩
    | @ran actor payload revisionId id _ _ h =>
      cases h with
      | first hcommand hnone =>
        refine ⟨row, ?_, .same rfl⟩
        refine (Table.get_put_of_ne _ _ ?_).trans hrow
        rintro rfl
        rw [hnone] at hrow
        cases hrow
      | @effective row₀ row₁ db₁ hrow₀ hversion hnew heffect =>
        change ∃ row', (db₁.profiles.put actor.userId _).get owner = some row' ∧ _
        rw [heffect.tables.1]
        by_cases howner : actor.userId = owner
        · subst howner
          obtain rfl := Option.some.inj (hrow₀.symm.trans hrow)
          exact ⟨_, Table.get_put_self _ _ _, .effective rfl hfresh.1 hnew heffect⟩
        · refine ⟨row, ?_, .same rfl⟩
          exact (Table.get_put_of_ne _ _ (Ne.symm howner)).trans hrow
    | _ => exact ⟨row, hrow, .same rfl⟩

theorem ProfileChange.fences {call : Option TalentCall}
    (h : ProfileChange digests w owner row call db' row') : row.Fences row' ∧ row'.id = row.id := by
  cases h with
  | same hrow =>
    rw [hrow]
    exact ⟨.inr ⟨rfl, rfl, rfl⟩, rfl⟩
  | effective howner hfresh hnew heffect => exact ⟨heffect.fences, heffect.version.2⟩

theorem profile_run {l : List (TalentWorld × Option TalentCall × TalentWorld)}
    (hrun : (talentSystem digests).Run w l w') (hrow : w.db.profiles.get owner = some row) :
    ∃ row', w'.db.profiles.get owner = some row' ∧ row.Fences row' ∧ row'.id = row.id := by
  induction hrun with
  | nil => exact ⟨row, hrow, .refl row, rfl⟩
  | snoc _ hstep ih =>
    obtain ⟨row₁, hrow₁, hfences, hid⟩ := ih
    obtain ⟨row', hrow', hchange⟩ := profile_change hstep hrow₁
    exact ⟨row', hrow', hfences.trans hchange.fences.1, hchange.fences.2.trans hid⟩

theorem revision_step {call : Option TalentCall} (hstep : TalentStep digests w call w')
    (hr : w.db.revisions.get rid = some r) : w'.db.revisions.get rid = some r := by
  cases hstep with
  | elsewhere h =>
    rw [h.revisions]
    exact hr
  | @call now call hnow hfresh =>
    have hchange : TalentChange digests now w.db call (call.after digests now w.db) :=
      talent_change call
    dsimp only
    generalize call.after digests now w.db = db' at hchange
    cases hchange with
    | ran h =>
      cases h with
      | first => exact hr
      | effective _ _ _ heffect => exact heffect.revision hfresh.1 hr
    | _ => exact hr

theorem revision_run {l : List (TalentWorld × Option TalentCall × TalentWorld)}
    (hrun : (talentSystem digests).Run w l w') (hr : w.db.revisions.get rid = some r) :
    w'.db.revisions.get rid = some r := by
  induction hrun with
  | nil => exact hr
  | snoc _ hstep ih => exact revision_step hstep ih

end Profiles

section Invariant

variable {digests : TalentDigests} {w w' : TalentWorld} {owner : UserId} {row' : TalentProfile}

structure TalentsSound (w : TalentWorld) : Prop where
  published : ∀ owner row rid, w.db.profiles.get owner = some row →
    row.publicRevisionId = some rid → ∃ r, w.db.revisions.get rid = some r
  ids : ∀ owner owner' row row', w.db.profiles.get owner = some row →
    w.db.profiles.get owner' = some row' → row.id = row'.id → owner = owner'

/-- A profile was there before, or it is the first save of its owner. -/
theorem profile_origin {call : Option TalentCall} (hstep : TalentStep digests w call w')
    (hrow' : w'.db.profiles.get owner = some row') :
    (∃ row, w.db.profiles.get owner = some row) ∨
      row'.publicRevisionId = none ∧ row'.visible = false ∧
        (∃ actor payload revisionId, call = some (.run actor payload revisionId row'.id) ∧
          actor.userId = owner) ∧
        ∀ owner' row, w.db.profiles.get owner' = some row → row.id ≠ row'.id := by
  cases hrow : w.db.profiles.get owner with
  | some row => exact .inl ⟨row, rfl⟩
  | none =>
    refine .inr ?_
    cases hstep with
    | elsewhere h =>
      obtain ⟨takenDown, heq⟩ := h.profiles owner
      rw [heq, hrow] at hrow'
      cases hrow'
    | @call now call hnow hfresh =>
      have hchange : TalentChange digests now w.db call (call.after digests now w.db) :=
        talent_change call
      dsimp only at hrow'
      generalize call.after digests now w.db = db' at hchange hrow'
      have hold : w.db.profiles.get owner = some row' → False := by
        intro hsome
        rw [hrow] at hsome
        cases hsome
      cases hchange with
      | @ran actor payload revisionId id _ _ h =>
        cases h with
        | first hcommand hnone =>
          rcases Table.get_put_eq_some hrow' with ⟨rfl, rfl⟩ | ⟨_, hsome⟩
          · exact ⟨rfl, rfl, ⟨actor, payload, revisionId, rfl, rfl⟩, hfresh.2 hnone⟩
          · exact (hold hsome).elim
        | @effective row₀ row₁ db₁ hrow₀ _ _ heffect =>
          change (db₁.profiles.put actor.userId _).get owner = some row' at hrow'
          rw [heffect.tables.1] at hrow'
          rcases Table.get_put_eq_some hrow' with ⟨rfl, _⟩ | ⟨_, hsome⟩
          · rw [hrow] at hrow₀
            cases hrow₀
          · exact (hold hsome).elim
      | _ => exact (hold hrow').elim

theorem TalentsSound.step {call : Option TalentCall} (hw : TalentsSound w)
    (hstep : TalentStep digests w call w') : TalentsSound w' := by
  constructor
  · intro owner row' rid hrow' hpublic
    rcases profile_origin hstep hrow' with ⟨row, hrow⟩ | ⟨hnone, _⟩
    · obtain ⟨row₁, hrow₁, hchange⟩ := profile_change hstep hrow
      obtain rfl := Option.some.inj (hrow₁.symm.trans hrow')
      have hkept : row.publicRevisionId = some rid → ∃ r, w'.db.revisions.get rid = some r := by
        intro hold
        obtain ⟨r, hr⟩ := hw.published owner row rid hrow hold
        exact ⟨r, revision_step hstep hr⟩
      generalize w'.db = db' at hchange hkept ⊢
      cases hchange with
      | same heq =>
        rw [heq] at hpublic
        exact hkept hpublic
      | @effective actor payload revisionId id now row₂ db₁ howner hfresh hnew heffect =>
        rcases heffect.public with hsame | ⟨hnew, r, hr⟩
        · exact hkept (hsame.symm.trans hpublic)
        · obtain rfl := Option.some.inj (hnew.symm.trans hpublic)
          exact ⟨r, hr⟩
    · rw [hnone] at hpublic
      cases hpublic
  · intro owner owner' row row' hrow hrow' hid
    have hback : ∀ {owner : UserId} {row₀ row : TalentProfile},
        w.db.profiles.get owner = some row₀ → w'.db.profiles.get owner = some row →
        row.id = row₀.id := by
      intro owner row₀ row hrow₀ hrow
      obtain ⟨row₁, hrow₁, hchange⟩ := profile_change hstep hrow₀
      obtain rfl := Option.some.inj (hrow₁.symm.trans hrow)
      exact hchange.fences.2
    rcases profile_origin hstep hrow with ⟨row₀, hrow₀⟩ | ⟨_, _, ⟨actor, payload, _, hcall, rfl⟩, hnew⟩
    · rcases profile_origin hstep hrow' with ⟨row₀', hrow₀'⟩ | ⟨_, _, _, hnew⟩
      · refine hw.ids owner owner' row₀ row₀' hrow₀ hrow₀' ?_
        exact (hback hrow₀ hrow).symm.trans (hid.trans (hback hrow₀' hrow'))
      · exact absurd ((hback hrow₀ hrow).symm.trans hid) (hnew owner row₀ hrow₀)
    · rcases profile_origin hstep hrow' with
        ⟨row₀', hrow₀'⟩ | ⟨_, _, ⟨actor', payload', _, hcall', rfl⟩, _⟩
      · exact absurd ((hback hrow₀' hrow').symm.trans hid.symm) (hnew owner' row₀' hrow₀')
      · have hcalls := Option.some.inj (hcall.symm.trans hcall')
        exact congrArg Actor.userId (TalentCall.run.inj hcalls).1

theorem talents_sound (hw : (talentSystem digests).Reach w) : TalentsSound w := by
  induction hw with
  | init hinit =>
    constructor
    · intro owner row rid hrow
      rw [hinit.profiles] at hrow
      cases hrow
    · intro owner owner' row row' hrow
      rw [hinit.profiles] at hrow
      cases hrow
  | step _ hstep ih => exact ih.step hstep

end Invariant

section Files

variable {digests : TalentDigests} {db db' : TalentDb} {now : Instant} {w w' : TalentWorld}
  {row row' : TalentProfile} {revisionId : RevisionId} {command : TalentCommand}
  {fileId : TalentFileId} {file file' file'' : TalentFile}

/-- What is withdrawn stays withdrawn, and what is READY stays as it is. -/
structure TalentFile.Kept (file file' : TalentFile) : Prop where
  removed : file.removedAt ≠ none → file'.removedAt ≠ none
  revoked : file.revokedAt ≠ none → file'.revokedAt ≠ none
  ready : ∀ sha256, file.state = .ready sha256 → file'.state = .ready sha256

theorem TalentFile.Kept.refl (file : TalentFile) : file.Kept file :=
  ⟨fun h => h, fun h => h, fun _ h => h⟩

theorem TalentFile.Kept.trans (h : file.Kept file') (h' : file'.Kept file'') : file.Kept file'' where
  removed hremoved := h'.removed (h.removed hremoved)
  revoked hrevoked := h'.revoked (h.revoked hrevoked)
  ready sha256 hready := h'.ready sha256 (h.ready sha256 hready)

/-- One file that is put beside the others. -/
theorem kept_put {id₀ : TalentFileId} {file₀ file₁ : TalentFile} {t : Table TalentFileId TalentFile}
    (hfile₀ : t.get id₀ = some file₀) (hkept : file₀.Kept file₁)
    (hfile : t.get fileId = some file) :
    ∃ file', (t.put id₀ file₁).get fileId = some file' ∧ file.Kept file' := by
  by_cases hid : fileId = id₀
  · subst hid
    obtain rfl := Option.some.inj (hfile₀.symm.trans hfile)
    exact ⟨file₁, Table.get_put_self _ _ _, hkept⟩
  · exact ⟨file, (Table.get_put_of_ne _ _ hid).trans hfile, .refl file⟩

theorem TalentEffect.file_kept (h : TalentEffect db now row revisionId command db' row')
    (hfile : db.files.get fileId = some file) :
    ∃ file', db'.files.get fileId = some file' ∧ file.Kept file' := by
  cases h with
  | removed hfile₀ =>
    refine kept_put hfile₀ ⟨fun _ => Option.some_ne_none _, fun h => h, ?_⟩ hfile
    intro sha256 hready
    dsimp only
    rw [hready]
    rfl
  | withdrawn hfile₀ =>
    refine kept_put hfile₀ ⟨fun h => h, fun _ => Option.some_ne_none _, ?_⟩ hfile
    intro sha256 hready
    dsimp only
    rw [hready]
    rfl
  | _ => exact ⟨file, hfile, .refl file⟩

theorem file_step {call : Option TalentCall} (hstep : TalentStep digests w call w')
    (hfile : w.db.files.get fileId = some file) :
    ∃ file', w'.db.files.get fileId = some file' ∧ file.Kept file' := by
  cases hstep with
  | elsewhere h =>
    rw [h.files]
    exact ⟨file, hfile, .refl file⟩
  | @call now call hnow hfresh =>
    have hchange : TalentChange digests now w.db call (call.after digests now w.db) :=
      talent_change call
    dsimp only
    generalize call.after digests now w.db = db' at hchange
    cases hchange with
    | nothing => exact ⟨file, hfile, .refl file⟩
    | ran h =>
      cases h with
      | first => exact ⟨file, hfile, .refl file⟩
      | effective _ _ _ heffect => exact heffect.file_kept hfile
    | @uploaded actor payload id₀ =>
      refine ⟨file, (Table.get_put_of_ne _ _ ?_).trans hfile, .refl file⟩
      rintro rfl
      have hnone : w.db.files.get fileId = none := hfresh
      rw [hfile] at hnone
      cases hnone
    | started hfile₀ hsettled =>
      refine kept_put hfile₀ ⟨fun h => h, fun h => h, fun sha256 hready => ?_⟩ hfile
      rw [hready] at hsettled
      exact absurd rfl hsettled
    | checked hfile₀ htoken =>
      refine kept_put hfile₀ ⟨fun h => h, fun h => h, fun sha256 hready => ?_⟩ hfile
      rw [hready] at htoken
      cases htoken

theorem file_run {l : List (TalentWorld × Option TalentCall × TalentWorld)}
    (hrun : (talentSystem digests).Run w l w') (hfile : w.db.files.get fileId = some file) :
    ∃ file', w'.db.files.get fileId = some file' ∧ file.Kept file' := by
  induction hrun with
  | nil => exact ⟨file, hfile, .refl file⟩
  | snoc _ hstep ih =>
    obtain ⟨file₁, hfile₁, hkept⟩ := ih
    obtain ⟨file', hfile', hkept'⟩ := file_step hstep hfile₁
    exact ⟨file', hfile', hkept.trans hkept'⟩

end Files

section Reads

variable {db : TalentDb} {viewer : Actor} {profileId : ProfileId} {fileId : TalentFileId}
  {expected : ℕ} {row : TalentProfile} {sha256 : List UInt8 → Text} {ticket : FileTicket}
  {object answer : StoredObject}

theorem lockVisible_ok (h : db.lockVisible viewer profileId expected = .ok row) :
    ∃ owner, db.profiles.get owner = some row ∧ row.id = profileId ∧ row.visible = true ∧
      row.publicVersion = expected := by
  obtain ⟨owned, _, h⟩ := orRefuse_bind_ok.mp h
  obtain ⟨row₀, hrow, h⟩ := bind_ok.mp h
  obtain ⟨_, _, hrow⟩ := bind_ok.mp hrow
  obtain ⟨⟨hid, hvisible, _⟩, h⟩ := ensure_bind_ok.mp h
  obtain ⟨hversion, h⟩ := ensure_bind_ok.mp h
  cases h
  exact ⟨owned.1, orRefuse_ok.mp hrow, hid, hvisible, hversion⟩

theorem getContacts_ok {version : ℕ} {contacts : List Contact}
    (h : db.getContacts viewer profileId expected = .ok (version, contacts)) :
    ∃ row, db.lockVisible viewer profileId expected = .ok row ∧
      contacts = (db.publicRevision row).elim [] TalentRevision.contacts := by
  obtain ⟨row, hrow, h⟩ := bind_ok.mp h
  cases h
  exact ⟨row, hrow, rfl⟩

theorem lockPublicFile_ok {file : TalentFile} (h : db.lockPublicFile row fileId = .ok file) :
    db.files.get fileId = some file ∧ file.Readable ∧
      (row.publicRevisionId.bind fun r => db.links.get (r, fileId)) ≠ none := by
  obtain ⟨hfile, hcond⟩ := Option.filter_eq_some_iff.mp (orRefuse_ok.mp h)
  exact ⟨hfile, (of_decide_eq_true hcond).2⟩

theorem finishFileRead_ok (h : db.finishFileRead sha256 viewer profileId fileId expected ticket
      object = .ok answer) :
    answer = object ∧ ∃ row file, db.lockVisible viewer profileId expected = .ok row ∧
      db.lockPublicFile row fileId = .ok file ∧
        file.state.digest = some (sha256 object.content) := by
  obtain ⟨⟨_, _, hsha⟩, h⟩ := ensure_bind_ok.mp h
  obtain ⟨row, hrow, h⟩ := bind_ok.mp h
  obtain ⟨file, hfile, h⟩ := bind_ok.mp h
  obtain ⟨⟨hdigest, _⟩, h⟩ := ensure_bind_ok.mp h
  cases h
  exact ⟨rfl, row, file, hrow, hfile, hdigest.trans hsha.symm⟩

theorem TalentFileState.digest_eq {state : TalentFileState} {d : Text}
    (h : state.digest = some d) : state = .ready d := by
  cases state with
  | ready sha => exact congrArg ready (Option.some.inj h)
  | pending => cases h
  | checking => cases h
  | rejected => cases h

end Reads

end CampusQuest.Innovation
