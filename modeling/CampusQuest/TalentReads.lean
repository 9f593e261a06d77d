import CampusQuest.TalentFences

/-!
What the campus reads of a talent profile over every run. A read that names a public version
is of the revision of that version; after a withdrawal a read succeeds only behind a publication
that gives its consent again; and the bytes of a file are those that were found READY.
-/

namespace CampusQuest.Innovation

open Guards Tables Runs
open Lifecycle (Account UserStatus)

section Publications

variable {digests : TalentDigests} {db db' : TalentDb} {now : Instant} {w w' : TalentWorld}
  {owner : UserId} {actor : Actor} {payload : TalentPayload} {row : TalentProfile}
  {revisionId : RevisionId} {id : ProfileId} {c : Contact} {channel : ContactChannel}

structure TalentTakesEffect (owner : UserId) (payload : TalentPayload) (db db' : TalentDb) :
    Prop where
  new : db.receipts.get (owner, payload.requestId) = none
  filed : db'.receipts.get (owner, payload.requestId) ≠ none

structure Publishes (owner : UserId) (row : TalentProfile) (db : TalentDb)
    (call : Option TalentCall) (db' : TalentDb) : Prop where
  found : db.profiles.get owner = some row
  command : ∃ actor payload revisionId id, call = some (.run actor payload revisionId id) ∧
    actor.userId = owner ∧ payload.command = .publish ∧ TalentTakesEffect owner payload db db'

def TalentDb.publicContactsOf (db : TalentDb) (owner : UserId) : List Contact :=
  ((db.profiles.get owner).bind db.publicRevision).elim [] TalentRevision.contacts

def TalentDb.Shown (db : TalentDb) (owner : UserId) : Prop :=
  ∃ row, db.profiles.get owner = some row ∧ row.visible = true

theorem mem_publicContactsOf : c ∈ db.publicContactsOf owner ↔
    ∃ row rid r, db.profiles.get owner = some row ∧ row.publicRevisionId = some rid ∧
      db.revisions.get rid = some r ∧ c ∈ r.contacts := by
  unfold TalentDb.publicContactsOf TalentDb.publicRevision
  constructor
  · intro h
    cases hrow : db.profiles.get owner with
    | none =>
      rw [hrow] at h
      cases h
    | some row =>
      rw [hrow, Option.bind_some] at h
      cases hr : row.publicRevisionId.bind db.revisions.get with
      | none =>
        rw [hr] at h
        cases h
      | some r =>
        obtain ⟨rid, hpublic, hr'⟩ := Option.bind_eq_some_iff.mp hr
        rw [hr] at h
        exact ⟨row, rid, r, rfl, hpublic, hr', h⟩
  · rintro ⟨row, rid, r, hrow, hpublic, hr, hc⟩
    rw [hrow, Option.bind_some, hpublic, Option.bind_some, hr]
    exact hc

theorem takesEffect_finish {db₁ : TalentDb} {row₁ : TalentProfile} (howner : actor.userId = owner)
    (hnew : db.receipts.get (owner, payload.requestId) = none) :
    TalentTakesEffect owner payload db (db₁.finish digests now actor row₁ payload) := by
  subst howner
  refine ⟨hnew, ?_⟩
  change (db₁.receipts.put (actor.userId, payload.requestId) _).get
    (actor.userId, payload.requestId) ≠ none
  rw [Table.get_put_self]
  exact Option.some_ne_none _

/-- A contact becomes public by a publication that lists it only. -/
theorem talent_contact_step {call : Option TalentCall} (hw : TalentsSound w)
    (hstep : TalentStep digests w call w') (hnot : c ∉ w.db.publicContactsOf owner)
    (h : c ∈ w'.db.publicContactsOf owner) :
    ∃ row, Publishes owner row w.db call w'.db ∧ c ∈ row.fields.contacts := by
  obtain ⟨row', rid, r', hrow', hpublic', hr', hc⟩ := mem_publicContactsOf.mp h
  rcases profile_origin hstep hrow' with ⟨row, hrow⟩ | ⟨hnone, _⟩
  · obtain ⟨row₁, hrow₁, hchange⟩ := profile_change hstep hrow
    obtain rfl := Option.some.inj (hrow₁.symm.trans hrow')
    have hkept : row.publicRevisionId = some rid → False := by
      intro hpublic
      obtain ⟨r, hr⟩ := hw.published owner row rid hrow hpublic
      obtain rfl := Option.some.inj ((revision_step hstep hr).symm.trans hr')
      exact hnot (mem_publicContactsOf.mpr ⟨row, rid, r, hrow, hpublic, hr, hc⟩)
    have hold : ∀ r, w.db.publicRevision row = some r → c ∉ r.contacts := by
      intro r hr hmem
      obtain ⟨rid', hpublic, hr⟩ := Option.bind_eq_some_iff.mp hr
      exact hnot (mem_publicContactsOf.mpr ⟨row, rid', r, hrow, hpublic, hr, hmem⟩)
    generalize w'.db = db' at hchange hr' ⊢
    cases hchange with
    | same heq =>
      rw [heq] at hpublic'
      exact (hkept hpublic').elim
    | @effective actor payload revisionId id now row₂ db₁ howner hfresh hnew heffect =>
      change row₂.publicRevisionId = some rid at hpublic'
      change db₁.revisions.get rid = some r' at hr'
      generalize hcommand : payload.command = command at heffect
      cases heffect with
      | published tags =>
        obtain rfl : revisionId = rid := Option.some.inj hpublic'
        obtain rfl := Option.some.inj ((Table.get_put_self _ _ _).symm.trans hr')
        exact ⟨row, ⟨hrow, actor, payload, revisionId, id, rfl, howner, hcommand,
          takesEffect_finish howner hnew⟩, hc⟩
      | revoked hrevision =>
        obtain rfl : revisionId = rid := Option.some.inj hpublic'
        obtain rfl := Option.some.inj ((Table.get_put_self _ _ _).symm.trans hr')
        exact absurd (List.mem_filter.mp hc).1 (hold _ hrevision)
      | withdrawn _ hrevision =>
        obtain rfl : revisionId = rid := Option.some.inj hpublic'
        obtain rfl := Option.some.inj ((Table.get_put_self _ _ _).symm.trans hr')
        exact (hold _ hrevision hc).elim
      | _ => exact (hkept hpublic').elim
  · rw [hnone] at hpublic'
    cases hpublic'

/-- A profile becomes visible by a publication only. -/
theorem talent_shown_step {call : Option TalentCall} (hstep : TalentStep digests w call w')
    (hnot : ¬ w.db.Shown owner) (h : w'.db.Shown owner) :
    ∃ row, Publishes owner row w.db call w'.db := by
  obtain ⟨row', hrow', hvisible⟩ := h
  rcases profile_origin hstep hrow' with ⟨row, hrow⟩ | ⟨_, hhidden, _⟩
  · obtain ⟨row₁, hrow₁, hchange⟩ := profile_change hstep hrow
    obtain rfl := Option.some.inj (hrow₁.symm.trans hrow')
    have hkept : row.visible = true → False := fun hold => hnot ⟨row, hrow, hold⟩
    generalize w'.db = db' at hchange ⊢
    cases hchange with
    | same heq =>
      rw [heq] at hvisible
      exact (hkept hvisible).elim
    | @effective actor payload revisionId id now row₂ db₁ howner hfresh hnew heffect =>
      change row₂.visible = true at hvisible
      generalize hcommand : payload.command = command at heffect
      cases heffect with
      | published =>
        exact ⟨row, hrow, actor, payload, revisionId, id, rfl, howner, hcommand,
          takesEffect_finish howner hnew⟩
      | hidden => cases hvisible
      | _ => exact (hkept hvisible).elim
  · rw [hhidden] at hvisible
    cases hvisible

/-- What an effective command has done to an existing profile. -/
theorem talent_effective (hstep : TalentStep digests w
      (some (.run actor payload revisionId id)) w')
    (heffect : TalentTakesEffect actor.userId payload w.db w'.db)
    (hrow : w.db.profiles.get actor.userId = some row) :
    ∃ now row₁ db₁, TalentEffect w.db now row revisionId payload.command db₁ row₁ ∧
      w'.db = db₁.finish digests now actor (TalentDb.bump now row₁) payload := by
  cases hstep with
  | @call now _ hnow hfresh =>
    have hchange : TalentChange digests now w.db (.run actor payload revisionId id)
        (TalentCall.after digests now w.db (.run actor payload revisionId id)) := talent_change _
    dsimp only at heffect ⊢
    generalize TalentCall.after digests now w.db (.run actor payload revisionId id) = db'
      at heffect hchange ⊢
    cases hchange with
    | nothing => exact absurd heffect.new heffect.filed
    | ran h =>
      cases h with
      | first hcommand hnone =>
        rw [hrow] at hnone
        cases hnone
      | effective hrow₀ hversion hnew hdone =>
        obtain rfl := Option.some.inj (hrow.symm.trans hrow₀)
        exact ⟨now, _, _, hdone, rfl⟩

theorem hidden_not_shown (hstep : TalentStep digests w
      (some (.run actor payload revisionId id)) w')
    (heffect : TalentTakesEffect actor.userId payload w.db w'.db)
    (hrow : w.db.profiles.get actor.userId = some row) (hcommand : payload.command = .hide) :
    ¬ w'.db.Shown actor.userId := by
  obtain ⟨now, row₁, db₁, hdone, hdb⟩ := talent_effective hstep heffect hrow
  rintro ⟨row', hrow', hvisible⟩
  rw [hdb] at hrow'
  obtain rfl := Option.some.inj ((Table.get_put_self _ _ _).symm.trans hrow')
  rw [hcommand] at hdone
  cases hdone
  cases hvisible

theorem revoked_not_public (hstep : TalentStep digests w
      (some (.run actor payload revisionId id)) w')
    (heffect : TalentTakesEffect actor.userId payload w.db w'.db)
    (hrow : w.db.profiles.get actor.userId = some row)
    (hcommand : payload.command = .revokeContact channel) (hchannel : c.channel = channel) :
    c ∉ w'.db.publicContactsOf actor.userId := by
  obtain ⟨now, row₁, db₁, hdone, hdb⟩ := talent_effective hstep heffect hrow
  intro h
  obtain ⟨row', rid, r, hrow', hpublic, hr, hc⟩ := mem_publicContactsOf.mp h
  rw [hdb] at hrow' hr
  obtain rfl := Option.some.inj ((Table.get_put_self _ _ _).symm.trans hrow')
  rw [hcommand] at hdone
  cases hdone
  obtain rfl : revisionId = rid := Option.some.inj hpublic
  obtain rfl := Option.some.inj ((Table.get_put_self _ _ _).symm.trans hr)
  have hother := of_decide_eq_true (List.mem_filter.mp hc).2
  exact hother hchannel

theorem withdrawn_file {fileId : TalentFileId} (hstep : TalentStep digests w
      (some (.run actor payload revisionId id)) w')
    (heffect : TalentTakesEffect actor.userId payload w.db w'.db)
    (hrow : w.db.profiles.get actor.userId = some row)
    (hcommand : payload.command = .removeFile fileId ∨ payload.command = .revokeFile fileId) :
    ∃ file, w'.db.files.get fileId = some file ∧ (file.removedAt ≠ none ∨ file.revokedAt ≠ none) := by
  obtain ⟨now, row₁, db₁, hdone, hdb⟩ := talent_effective hstep heffect hrow
  rw [hdb]
  rcases hcommand with hcommand | hcommand
  · rw [hcommand] at hdone
    cases hdone
    exact ⟨_, Table.get_put_self _ _ _, .inl (Option.some_ne_none _)⟩
  · rw [hcommand] at hdone
    cases hdone
    exact ⟨_, Table.get_put_self _ _ _, .inr (Option.some_ne_none _)⟩

end Publications

section Fences

variable {digests : TalentDigests} {w w' : TalentWorld} {owner : UserId} {row row' : TalentProfile}
  {viewer viewer' : Actor} {profileId : ProfileId} {expected : ℕ} {c : Contact}
  {l : List (TalentWorld × Option TalentCall × TalentWorld)}

/-- Reads that name one version are of one revision. -/
theorem same_revision (hw : (talentSystem digests).Reach w)
    (hrun : (talentSystem digests).Run w l w')
    (h : w.db.lockVisible viewer profileId expected = .ok row)
    (h' : w'.db.lockVisible viewer' profileId expected = .ok row') :
    row'.publicRevisionId = row.publicRevisionId ∧
      w'.db.publicRevision row' = w.db.publicRevision row := by
  obtain ⟨owner, hrow, hid, _, hversion⟩ := lockVisible_ok h
  obtain ⟨owner', hrow', hid', _, hversion'⟩ := lockVisible_ok h'
  obtain ⟨row₁, hrow₁, hfences, hid₁⟩ := profile_run hrun hrow
  have hsame : owner = owner' := by
    refine (talents_sound (hrun.reach hw)).ids owner owner' row₁ row' hrow₁ hrow' ?_
    rw [hid₁, hid, hid']
  subst hsame
  obtain rfl := Option.some.inj (hrow₁.symm.trans hrow')
  rcases hfences with hlt | ⟨_, _, hpublic⟩
  · rw [hversion, hversion'] at hlt
    exact absurd hlt (lt_irrefl _)
  · refine ⟨hpublic, ?_⟩
    unfold TalentDb.publicRevision
    rw [hpublic]
    cases hrid : row.publicRevisionId with
    | none => rfl
    | some rid =>
      obtain ⟨r, hr⟩ := (talents_sound hw).published owner row rid hrow hrid
      rw [Option.bind_some, Option.bind_some, hr]
      exact revision_run hrun hr

theorem read_owner (hw : (talentSystem digests).Reach w)
    (hrun : (talentSystem digests).Run w l w') (hrow : w.db.profiles.get owner = some row)
    (h : w'.db.lockVisible viewer row.id expected = .ok row') :
    w'.db.profiles.get owner = some row' ∧ row'.visible = true := by
  obtain ⟨owner', hrow', hid', hvisible, _⟩ := lockVisible_ok h
  obtain ⟨row₁, hrow₁, _, hid₁⟩ := profile_run hrun hrow
  have hsame : owner = owner' :=
    (talents_sound (hrun.reach hw)).ids owner owner' row₁ row' hrow₁ hrow' (hid₁.trans hid'.symm)
  subst hsame
  exact ⟨hrow', hvisible⟩

/-- A profile that is read after it was not visible was published in between. -/
theorem shown_again (hw : (talentSystem digests).Reach w)
    (hrun : (talentSystem digests).Run w l w') (hrow : w.db.profiles.get owner = some row)
    (hnot : ¬ w.db.Shown owner) (h : w'.db.lockVisible viewer row.id expected = .ok row') :
    ∃ u call u' row₁, (u, call, u') ∈ l ∧ Publishes owner row₁ u.db call u'.db := by
  obtain ⟨hrow', hvisible⟩ := read_owner hw hrun hrow h
  obtain ⟨u, call, u', hmem, hstep, hnot, hshown⟩ :=
    hrun.crosses (P := fun u => u.db.Shown owner) hnot ⟨row', hrow', hvisible⟩
  obtain ⟨row₁, hpublishes⟩ := talent_shown_step hstep hnot hshown
  exact ⟨u, call, u', row₁, hmem, hpublishes⟩

/-- A contact that is read after it was not public was published in between. -/
theorem contact_again (hw : (talentSystem digests).Reach w)
    (hrun : (talentSystem digests).Run w l w') (hrow : w.db.profiles.get owner = some row)
    (hnot : c ∉ w.db.publicContactsOf owner) {version : ℕ} {contacts : List Contact}
    (h : w'.db.getContacts viewer row.id expected = .ok (version, contacts)) (hc : c ∈ contacts) :
    ∃ u call u' row₁, (u, call, u') ∈ l ∧ Publishes owner row₁ u.db call u'.db ∧
      c ∈ row₁.fields.contacts := by
  obtain ⟨row', hlock, rfl⟩ := getContacts_ok h
  obtain ⟨hrow', _⟩ := read_owner hw hrun hrow hlock
  have hpublic : c ∈ w'.db.publicContactsOf owner := by
    unfold TalentDb.publicContactsOf
    rw [hrow', Option.bind_some]
    exact hc
  obtain ⟨u, call, u', hmem, hstep, hnot, hin⟩ :=
    hrun.crosses (P := fun u => c ∈ u.db.publicContactsOf owner) hnot hpublic
  obtain ⟨_, l', hbefore⟩ := hrun.step_mem hmem
  obtain ⟨row₁, hpublishes, hlisted⟩ :=
    talent_contact_step (talents_sound (hbefore.reach hw)) hstep hnot hin
  exact ⟨u, call, u', row₁, hmem, hpublishes, hlisted⟩

/-- The public version of a talent profile over every run. It rises with what the campus sees;
reads of one version are of one revision; a revoked contact and a hidden profile are read again
behind a publication only, and a removed or a revoked file never; and the bytes of a file have
the digest that it became READY with. -/
theorem public_version_fences (digests : TalentDigests) (sha256 : List UInt8 → Text)
    {w : TalentWorld} (hw : (talentSystem digests).Reach w) :
    (∀ call w' owner row row', (talentSystem digests).step w call w' →
      w.db.profiles.get owner = some row → w'.db.profiles.get owner = some row' →
      row.publicVersion ≤ row'.publicVersion ∧
        (row'.visible ≠ row.visible ∨ row'.publicRevisionId ≠ row.publicRevisionId →
          row.publicVersion < row'.publicVersion)) ∧
    (∀ l w' viewer viewer' profileId expected row row', (talentSystem digests).Run w l w' →
      w.db.lockVisible viewer profileId expected = .ok row →
      w'.db.lockVisible viewer' profileId expected = .ok row' →
      row'.publicRevisionId = row.publicRevisionId ∧
        w'.db.publicRevision row' = w.db.publicRevision row) ∧
    (∀ viewer profileId expected version contacts,
      w.db.getContacts viewer profileId expected = .ok (version, contacts) →
      ∃ row, w.db.lockVisible viewer profileId expected = .ok row ∧
        contacts = (w.db.publicRevision row).elim [] TalentRevision.contacts) ∧
    (∀ viewer profileId fileId expected ticket object answer,
      w.db.finishFileRead sha256 viewer profileId fileId expected ticket object = .ok answer →
      ∃ row file d, w.db.lockVisible viewer profileId expected = .ok row ∧
        (row.publicRevisionId.bind fun r => w.db.links.get (r, fileId)) ≠ none ∧
        w.db.files.get fileId = some file ∧ file.state = .ready d ∧ sha256 answer.content = d) ∧
    (∀ l w' fileId file d, (talentSystem digests).Run w l w' →
      w.db.files.get fileId = some file → file.state = .ready d →
      ∃ file', w'.db.files.get fileId = some file' ∧ file'.state = .ready d) ∧
    (∀ actor payload revisionId id w₁ l w₂ row, (talentSystem digests).step w
        (some (.run actor payload revisionId id)) w₁ →
      TalentTakesEffect actor.userId payload w.db w₁.db →
      w.db.profiles.get actor.userId = some row → (talentSystem digests).Run w₁ l w₂ →
      (∀ channel viewer expected version contacts c, payload.command = .revokeContact channel →
        w₂.db.getContacts viewer row.id expected = .ok (version, contacts) → c ∈ contacts →
        c.channel = channel → ∃ u call u' row₁, (u, call, u') ∈ l ∧
          Publishes actor.userId row₁ u.db call u'.db ∧ c ∈ row₁.fields.contacts) ∧
      (∀ fileId viewer profileId expected ticket object answer,
        payload.command = .removeFile fileId ∨ payload.command = .revokeFile fileId →
        w₂.db.finishFileRead sha256 viewer profileId fileId expected ticket object ≠ .ok answer) ∧
      (∀ viewer fileId expected, payload.command = .hide →
        ((∃ answer, w₂.db.getContacts viewer row.id expected = .ok answer) ∨
          ∃ ticket object answer, w₂.db.finishFileRead sha256 viewer row.id fileId expected ticket
            object = .ok answer) →
        ∃ u call u' row₁, (u, call, u') ∈ l ∧ Publishes actor.userId row₁ u.db call u'.db)) := by
  refine ⟨?_, ?_, ?_, ?_, ?_, ?_⟩
  · intro call w' owner row row' hstep hrow hrow'
    obtain ⟨row₁, hrow₁, hchange⟩ := profile_change hstep hrow
    obtain rfl := Option.some.inj (hrow₁.symm.trans hrow')
    have hfences := hchange.fences.1
    refine ⟨hfences.le, fun hseen => ?_⟩
    rcases hfences with hlt | ⟨_, hvisible, hpublic⟩
    · exact hlt
    · rcases hseen with hne | hne
      · exact absurd hvisible hne
      · exact absurd hpublic hne
  · intro l w' viewer viewer' profileId expected row row' hrun h h'
    exact same_revision hw hrun h h'
  · intro viewer profileId expected version contacts h
    exact getContacts_ok h
  · intro viewer profileId fileId expected ticket object answer h
    obtain ⟨rfl, row, file, hlock, hfile, hdigest⟩ := finishFileRead_ok h
    obtain ⟨hfile, _, hlink⟩ := lockPublicFile_ok hfile
    exact ⟨row, file, _, hlock, hlink, hfile, TalentFileState.digest_eq hdigest, rfl⟩
  · intro l w' fileId file d hrun hfile hready
    obtain ⟨file', hfile', hkept⟩ := file_run hrun hfile
    exact ⟨file', hfile', hkept.ready d hready⟩
  · intro actor payload revisionId id w₁ l w₂ row hstep heffect hrow hrun
    have hw₁ : (talentSystem digests).Reach w₁ := .step hw hstep
    obtain ⟨row₁, hrow₁, hchange⟩ := profile_change hstep hrow
    have hid : row₁.id = row.id := hchange.fences.2
    refine ⟨?_, ?_, ?_⟩
    · intro channel viewer expected version contacts c hcommand hread hc hchannel
      have hnot := revoked_not_public hstep heffect hrow hcommand hchannel
      rw [← hid] at hread
      exact contact_again hw₁ hrun hrow₁ hnot hread hc
    · intro fileId viewer profileId expected ticket object answer hcommand hread
      obtain ⟨file, hfile, hgone⟩ := withdrawn_file hstep heffect hrow hcommand
      obtain ⟨file', hfile', hkept⟩ := file_run hrun hfile
      obtain ⟨_, row₂, file₂, _, hlock, _⟩ := finishFileRead_ok hread
      obtain ⟨hfile₂, hreadable, _⟩ := lockPublicFile_ok hlock
      obtain rfl := Option.some.inj (hfile'.symm.trans hfile₂)
      rcases hgone with hremoved | hrevoked
      · exact hkept.removed hremoved hreadable.2.1
      · exact hkept.revoked hrevoked hreadable.2.2
    · intro viewer fileId expected hcommand hread
      have hnot := hidden_not_shown hstep heffect hrow hcommand
      rw [← hid] at hread
      rcases hread with ⟨⟨version, contacts⟩, hread⟩ | ⟨ticket, object, answer, hread⟩
      · obtain ⟨row₂, hlock, _⟩ := getContacts_ok hread
        exact shown_again hw₁ hrun hrow₁ hnot hlock
      · obtain ⟨_, row₂, _, hlock, _⟩ := finishFileRead_ok hread
        exact shown_again hw₁ hrun hrow₁ hnot hlock

end Fences

section Portrait

def portraitFields : TalentFields where
  content :=
    { name := ['n']
      faculty := ['f']
      grade := ['g']
      introduction := ['i']
      advantages := ['a']
      tagIds := [1]
      skillNotes := []
      cooperationDirection := []
      desiredRoles := []
      weeklyHours := none
      workMode := .unspecified
      cooperationState := some .looking
      experience := []
      links := []
      fileIds := [] }
  contacts := [⟨.qq, ['q']⟩]
  unique_tags := List.nodup_singleton 1
  unique_files := List.nodup_nil
  unique_channels := List.nodup_singleton _

def portraitDigests : TalentDigests where
  payload p := List.replicate p.requestId 'r'
  intent _ := []

def portraitOwner : Actor := ⟨1, .student⟩

def portraitViewer : Actor := ⟨2, .student⟩

def portraitStart : TalentWorld where
  db :=
    { users := (Table.empty.put 1 ⟨.student, .active⟩).put 2 ⟨.student, .active⟩
      tags := Table.empty.put 1 ⟨['t'], true⟩
      profiles := .empty
      revisions := .empty
      receipts := .empty
      files := .empty
      links := .empty }
  now := 0

def portraitRun (w : TalentWorld) (payload : TalentPayload) (revisionId : RevisionId) :
    TalentWorld :=
  ⟨(TalentCall.run portraitOwner payload revisionId 5).after portraitDigests 0 w.db, 0⟩

def portraitSaved : TalentWorld := portraitRun portraitStart ⟨.save portraitFields, 0, 1⟩ 1

def portraitPublished : TalentWorld := portraitRun portraitSaved ⟨.publish, 1, 2⟩ 1

def portraitHidden : TalentWorld := portraitRun portraitPublished ⟨.hide, 2, 3⟩ 2

def portraitAgain : TalentWorld := portraitRun portraitHidden ⟨.publish, 3, 4⟩ 2

theorem reach_portrait : (talentSystem portraitDigests).Reach portraitPublished := by
  have hinit : portraitStart.Initial := ⟨rfl, rfl, rfl, rfl, rfl⟩
  have hsaved : (talentSystem portraitDigests).Reach portraitSaved :=
    .step (.init hinit) (.call _ (le_refl _) ⟨rfl, fun _ owner row h => (by cases h)⟩)
  exact .step hsaved (.call _ (le_refl _) ⟨rfl, fun h => (by cases h)⟩)

theorem step_hidden : (talentSystem portraitDigests).step portraitPublished
    (some (.run portraitOwner ⟨.hide, 2, 3⟩ 2 5)) portraitHidden :=
  .call _ (le_refl _) ⟨rfl, fun h => (by cases h)⟩

theorem hidden_takes_effect :
    TalentTakesEffect 1 ⟨.hide, 2, 3⟩ portraitPublished.db portraitHidden.db :=
  ⟨rfl, fun h => (by cases h)⟩

theorem hidden_read_again :
    ¬ ∀ (digests : TalentDigests) (w w₁ w₂ : TalentWorld)
      (l : List (TalentWorld × Option TalentCall × TalentWorld)) (actor : Actor)
      (payload : TalentPayload) (revisionId : RevisionId) (id : ProfileId) (row : TalentProfile)
      (viewer : Actor) (expected : ℕ) (answer : ℕ × List Contact),
      (talentSystem digests).Reach w →
      (talentSystem digests).step w (some (.run actor payload revisionId id)) w₁ →
      TalentTakesEffect actor.userId payload w.db w₁.db → payload.command = .hide →
      w.db.profiles.get actor.userId = some row → (talentSystem digests).Run w₁ l w₂ →
      w₂.db.getContacts viewer row.id expected ≠ .ok answer := by
  intro h
  have hagain : (talentSystem portraitDigests).step portraitHidden
      (some (.run portraitOwner ⟨.publish, 3, 4⟩ 2 5)) portraitAgain :=
    .call _ (le_refl _) ⟨rfl, fun h => (by cases h)⟩
  have hfind : ∃ row, portraitAgain.db.profiles.get 1 = some row ∧
      (portraitAgain.db.profiles.find fun _ p => p.id = 5) = some (1, row) := by
    have hreach : (talentSystem portraitDigests).Reach portraitAgain :=
      .step (.step reach_portrait step_hidden) hagain
    exact ⟨_, rfl, Table.find_eq rfl rfl fun owner row hrow hid =>
      (talents_sound hreach).ids owner 1 row _ hrow rfl hid⟩
  have hread : portraitAgain.db.getContacts portraitViewer 5 3 = .ok (3, portraitFields.contacts) := by
    obtain ⟨row, hrow, hfind⟩ := hfind
    obtain rfl := Option.some.inj hrow
    unfold TalentDb.getContacts TalentDb.lockVisible
    rw [hfind]
    rfl
  exact h portraitDigests _ _ _ _ portraitOwner _ 2 5 _ portraitViewer 3 _ reach_portrait step_hidden
    hidden_takes_effect rfl rfl (.snoc (.nil _) hagain) hread

/-- Hiding the portrait raises its public version. -/
theorem portrait_fenced : ∃ row row', portraitPublished.db.profiles.get 1 = some row ∧
    portraitHidden.db.profiles.get 1 = some row' ∧ row.publicVersion < row'.publicVersion := by
  obtain ⟨hrises, _⟩ := public_version_fences portraitDigests (fun _ => []) reach_portrait
  obtain ⟨_, hlt⟩ := hrises _ _ 1 _ _ step_hidden rfl rfl
  exact ⟨_, _, rfl, rfl, hlt (.inl (by decide))⟩

end Portrait

end CampusQuest.Innovation
