import CampusQuest.RecruitmentSystem

/-!
The lifecycle of a recruitment over every run. An open recruitment has a public revision, a
cycle and a contact, one of the two modes of a deadline holds, the public sees exactly what is
open by the clock, and a contact that was revoked returns only with a publication.
-/

namespace CampusQuest.Innovation

open Guards Tables Runs

section Contacts

variable {db : RecruitmentDb} {now : Instant} {id : RecruitmentId} {fields : RecruitmentFields}
  {revision rid : RevisionId} {channel : ContactChannel}

theorem mem_liveContacts {c : Contact} :
    c ∈ db.liveContacts rid ↔ ∃ a, db.contacts.get (rid, c.channel) = some a ∧
      a.revokedAt = none ∧ a.value = c.value := by
  unfold RecruitmentDb.liveContacts
  rw [List.mem_filterMap]
  constructor
  · rintro ⟨channel, _, h⟩
    obtain ⟨a, ha, h⟩ := Option.bind_eq_some_iff.mp h
    split at h
    next hlive =>
      cases h
      exact ⟨a, ha, hlive, rfl⟩
    next => cases h
  · rintro ⟨a, ha, hlive, hvalue⟩
    refine ⟨c.channel, ?_, ?_⟩
    · cases c.channel <;> decide
    · rw [ha, Option.bind_some, if_pos hlive, hvalue]

/-- The contacts of a revision are its own rows. -/
theorem liveContacts_congr {db' : RecruitmentDb}
    (h : ∀ channel, db'.contacts.get (rid, channel) = db.contacts.get (rid, channel)) :
    db'.liveContacts rid = db.liveContacts rid := by
  unfold RecruitmentDb.liveContacts
  refine congrArg (List.filterMap · _) (funext fun channel => ?_)
  rw [h]

/-- A publication on a fresh revision adds its contacts and touches no other row. -/
theorem get_putPublication (hfresh : ∀ channel, db.contacts.get (revision, channel) = none)
    {key : RevisionId × ContactChannel} {a : ContactAuthorization} :
    (db.putPublication now id fields revision).contacts.get key = some a ↔
      db.contacts.get key = some a ∨ ∃ c ∈ fields.contacts, key = (revision, c.channel) ∧
        a = { recruitmentId := id, value := c.value, authorizedAt := now, revokedAt := none } := by
  have hkeys : ((RecruitmentDb.authorizations now id revision fields.contacts).map
      Prod.fst).Nodup := by
    have hmap : (RecruitmentDb.authorizations now id revision fields.contacts).map Prod.fst =
        (fields.contacts.map Contact.channel).map fun channel => (revision, channel) := by
      unfold RecruitmentDb.authorizations
      rw [List.map_map, List.map_map]
      rfl
    rw [hmap]
    exact fields.unique_channels.map fun _ _ heq => (Prod.mk.inj heq).2
  have hrows : ∀ e ∈ RecruitmentDb.authorizations now id revision fields.contacts,
      db.contacts.get e.1 = none := by
    intro e he
    obtain ⟨c, _, rfl⟩ := List.mem_map.mp he
    exact hfresh c.channel
  change (db.contacts.insertRows _).get key = some a ↔ _
  rw [Table.get_insertRows hrows hkeys]
  refine or_congr_right ?_
  unfold RecruitmentDb.authorizations
  rw [List.mem_map]
  constructor
  · rintro ⟨c, hc, heq⟩
    obtain ⟨rfl, rfl⟩ := Prod.mk.inj heq
    exact ⟨c, hc, rfl, rfl⟩
  · rintro ⟨c, hc, rfl, rfl⟩
    exact ⟨c, hc, rfl⟩

theorem get_putPublication_of_ne (hfresh : ∀ channel, db.contacts.get (revision, channel) = none)
    (hne : rid ≠ revision) :
    (db.putPublication now id fields revision).contacts.get (rid, channel) =
      db.contacts.get (rid, channel) := by
  refine Option.ext fun a => ?_
  rw [get_putPublication hfresh]
  constructor
  · rintro (hold | ⟨c, _, heq, _⟩)
    · exact hold
    · exact absurd (Prod.mk.inj heq).1 hne
  · exact .inl

/-- The contacts of a publication are the ones that its fields authorise. -/
theorem mem_liveContacts_putPublication
    (hfresh : ∀ channel, db.contacts.get (revision, channel) = none) {c : Contact} :
    c ∈ (db.putPublication now id fields revision).liveContacts revision ↔ c ∈ fields.contacts := by
  rw [mem_liveContacts]
  constructor
  · rintro ⟨a, ha, _, hvalue⟩
    rcases (get_putPublication hfresh).mp ha with hold | ⟨c', hc', hkey, rfl⟩
    · rw [hfresh] at hold
      cases hold
    · have hchannel : c.channel = c'.channel := (Prod.mk.inj hkey).2
      obtain ⟨channel, value⟩ := c
      obtain rfl : channel = c'.channel := hchannel
      obtain rfl : c'.value = value := hvalue
      exact hc'
  · intro hc
    exact ⟨_, (get_putPublication hfresh).mpr (.inr ⟨c, hc, rfl, rfl⟩), rfl, rfl⟩

theorem get_putRevocation {key : RevisionId × ContactChannel} :
    (db.putRevocation now rid channel).contacts.get key =
      (db.contacts.get key).map fun a =>
        if key = (rid, channel) then { a with revokedAt := some now } else a :=
  Table.get_updateWhere _ key

theorem get_putRevocation_of_ne {key : RevisionId × ContactChannel} (hne : key ≠ (rid, channel)) :
    (db.putRevocation now rid channel).contacts.get key = db.contacts.get key := by
  rw [get_putRevocation]
  cases db.contacts.get key with
  | none => rfl
  | some a => rw [Option.map_some, if_neg hne]

/-- A revocation takes one channel from the contacts of its revision. -/
theorem mem_liveContacts_putRevocation {c : Contact} :
    c ∈ (db.putRevocation now rid channel).liveContacts rid ↔
      c ∈ db.liveContacts rid ∧ c.channel ≠ channel := by
  rw [mem_liveContacts, mem_liveContacts]
  by_cases hchannel : c.channel = channel
  · subst hchannel
    constructor
    · rintro ⟨a, ha, hlive, _⟩
      rw [get_putRevocation] at ha
      obtain ⟨a₀, _, rfl⟩ := Option.map_eq_some_iff.mp ha
      rw [if_pos rfl] at hlive
      cases hlive
    · rintro ⟨_, hne⟩
      exact absurd rfl hne
  · have hne : (rid, c.channel) ≠ (rid, channel) := fun heq => hchannel (Prod.mk.inj heq).2
    rw [get_putRevocation_of_ne hne]
    exact ⟨fun h => ⟨h, hchannel⟩, fun h => h.1⟩

/-- Each channel occurs once. -/
theorem liveContacts_nodup : ((db.liveContacts rid).map Contact.channel).Nodup := by
  have hsublist : ∀ channels : List ContactChannel,
      (channels.filterMap fun channel => (db.contacts.get (rid, channel)).bind fun a =>
        if a.revokedAt = none then some (Contact.mk channel a.value) else none).map
          Contact.channel |>.Sublist channels := by
    intro channels
    induction channels with
    | nil => exact List.Sublist.slnil
    | cons channel channels ih =>
      rw [List.filterMap_cons]
      cases h : (db.contacts.get (rid, channel)).bind fun a =>
          if a.revokedAt = none then some (Contact.mk channel a.value) else none with
      | none => exact ih.cons channel
      | some c =>
        have hc : c.channel = channel := by
          obtain ⟨a, _, heq⟩ := Option.bind_eq_some_iff.mp h
          split at heq
          · cases heq
            rfl
          · cases heq
        rw [List.map_cons, hc]
        exact ih.cons_cons channel
  exact (hsublist _).nodup (by decide)

/-- With another channel left a revocation leaves a contact. -/
theorem liveContacts_putRevocation_ne_nil (hlive : ∃ c ∈ db.liveContacts rid, c.channel = channel)
    (hmore : (db.liveContacts rid).length ≠ 1) :
    (db.putRevocation now rid channel).liveContacts rid ≠ [] := by
  obtain ⟨c, hc, hchannel⟩ := hlive
  have hother : ∃ c' ∈ db.liveContacts rid, c'.channel ≠ channel := by
    by_contra hnone
    have hall : ∀ x ∈ (db.liveContacts rid).map Contact.channel, x = channel := by
      intro x hx
      obtain ⟨c', hc', rfl⟩ := List.mem_map.mp hx
      by_contra hne
      exact hnone ⟨c', hc', hne⟩
    have hreplicate := List.eq_replicate_of_mem hall
    have hnodup : ((db.liveContacts rid).map Contact.channel).Nodup := liveContacts_nodup
    rw [hreplicate, List.nodup_replicate, List.length_map] at hnodup
    have hpos := List.length_pos_of_mem hc
    omega
  obtain ⟨c', hc', hne⟩ := hother
  exact List.ne_nil_of_mem (mem_liveContacts_putRevocation.mpr ⟨hc', hne⟩)

end Contacts

section Rows

/-- What the row of a recruitment says about its publication and its schedule. -/
structure RowSound (db : RecruitmentDb) (id : RecruitmentId) (row : RecruitmentDraft) : Prop where
  published : ∀ rid, row.publicRevisionId = some rid → ∃ r, db.revisions.get rid = some r ∧
    r.recruitmentId = id ∧ r.content.deadlineAt = row.deadlineAt
  unpublished : row.status = .draft → row.publicRevisionId = none
  complete : row.status ≠ .draft → row.publicRevisionId ≠ none ∧ row.cycleId ≠ none
  one_mode : row.status ≠ .draft → (row.deadlineAt = none ↔ row.nextRemindAt ≠ none)
  contact : row.status = .opened → db.publicContacts row ≠ []

variable {db db' : RecruitmentDb} {now : Instant} {id : RecruitmentId} {row row' : RecruitmentDraft}
  {revision : RevisionId} {cycle : CycleId} {command : RecruitmentCommand}

/-- A row rests on its own revision and on the contacts of it. -/
theorem RowSound.frame (h : RowSound db id row)
    (hrevisions : ∀ rid r, db.revisions.get rid = some r → db'.revisions.get rid = some r)
    (hcontacts : ∀ rid, row.publicRevisionId = some rid →
      ∀ channel, db'.contacts.get (rid, channel) = db.contacts.get (rid, channel)) :
    RowSound db' id row := by
  refine ⟨?_, h.unpublished, h.complete, h.one_mode, ?_⟩
  · intro rid hpublic
    obtain ⟨r, hr, hof⟩ := h.published rid hpublic
    exact ⟨r, hrevisions rid r hr, hof⟩
  · intro hopen
    have hcontact := h.contact hopen
    unfold RecruitmentDb.publicContacts at hcontact ⊢
    cases hpublic : row.publicRevisionId with
    | none =>
      rw [hpublic] at hcontact
      exact absurd rfl hcontact
    | some rid =>
      rw [hpublic] at hcontact
      rw [Option.elim_some, liveContacts_congr (hcontacts rid hpublic)]
      exact hcontact

theorem RowSound.same (h : RowSound db id row) (hrevisions : db'.revisions = db.revisions)
    (hcontacts : db'.contacts = db.contacts) : RowSound db' id row := by
  refine h.frame (fun rid r hr => ?_) fun rid _ channel => ?_
  · rw [hrevisions]
    exact hr
  · rw [hcontacts]

theorem logicalStatus_opened (h : row.logicalStatus now = .opened) : row.status = .opened := by
  unfold RecruitmentDraft.logicalStatus at h
  split at h
  · cases h
  · exact h

/-- The status by the clock is open exactly when the stored one is and the deadline is ahead. -/
theorem logicalStatus_opened_iff : row.logicalStatus now = .opened ↔
    row.status = .opened ∧ row.deadlineAt.all (fun d => now < d) = true := by
  unfold RecruitmentDraft.logicalStatus
  cases row.deadlineAt with
  | none => simp
  | some d =>
    by_cases hd : d ≤ now
    · by_cases hstatus : row.status = .opened
      · simp [hstatus, hd]
      · simp [hstatus]
    · simp [hd, not_le.mp hd]

theorem validatePublication_contacts {fields : RecruitmentFields}
    (h : fields.validatePublication now = .ok ()) : fields.contacts ≠ [] := by
  obtain ⟨_, h⟩ := ensure_bind_ok.mp h
  obtain ⟨_, h⟩ := ensure_bind_ok.mp h
  obtain ⟨_, h⟩ := ensure_bind_ok.mp h
  exact (ensure_bind_ok.mp h).1

/-- A publication has a cycle, one of the two modes and the contacts of its fields. -/
theorem rowSound_published (hrow : RowSound db id row)
    (hfresh : ∀ channel, db.contacts.get (revision, channel) = none)
    (hvalid : row.fields.validatePublication now = .ok ()) :
    RowSound (db.putPublication now id row.fields revision) id
      (RecruitmentDb.publishedRow now row (row.logicalStatus now ≠ .opened) revision cycle) := by
  constructor
  · intro rid hpublic
    obtain rfl : revision = rid := Option.some.inj hpublic
    exact ⟨_, Table.get_put_self _ _ _, rfl, rfl⟩
  · exact fun heq => (by cases heq)
  · intro _
    refine ⟨Option.some_ne_none _, ?_⟩
    dsimp only [RecruitmentDb.publishedRow]
    split
    · exact Option.some_ne_none _
    next hsame =>
      have hopen : row.logicalStatus now = .opened := by
        by_contra hne
        exact hsame (by simp [hne])
      have hstatus := logicalStatus_opened hopen
      exact (hrow.complete (by rw [hstatus]; exact fun heq => (by cases heq))).2
  · intro _
    dsimp only [RecruitmentDb.publishedRow]
    cases hdeadline : row.fields.content.deadlineAt with
    | some d => simp
    | none =>
      simp only [Option.isSome_none, Bool.false_eq_true, if_false, true_iff]
      split
      · exact Option.some_ne_none _
      next hperiod =>
        -- The period goes on, so the recruitment was open without a deadline.
        simp only [Bool.or_eq_true, decide_eq_true_eq, Bool.and_eq_true, not_or, not_not,
          Option.isNone_none, and_true, Bool.not_eq_true, Option.isSome_eq_false_iff,
          Option.isNone_iff_eq_none] at hperiod
        have hstatus := logicalStatus_opened hperiod.1
        exact (hrow.one_mode (by rw [hstatus]; exact fun heq => (by cases heq))).mp hperiod.2
  · intro _
    obtain ⟨c, hc⟩ := List.exists_mem_of_ne_nil _ (validatePublication_contacts hvalid)
    exact List.ne_nil_of_mem ((mem_liveContacts_putPublication hfresh).mpr hc)

theorem RowSound.effect (hrow : RowSound db id row)
    (hfresh : ∀ channel, db.contacts.get (revision, channel) = none)
    (h : Effect db now id row revision cycle command db' row') : RowSound db' id row' := by
  have hopened : row.logicalStatus now = .opened → row.status ≠ .draft := by
    intro hopen heq
    rw [logicalStatus_opened hopen] at heq
    cases heq
  cases h with
  | updated fields =>
    exact ⟨hrow.published, hrow.unpublished, hrow.complete, hrow.one_mode, hrow.contact⟩
  | published _ hvalid => exact rowSound_published hrow hfresh hvalid
  | closed hopen =>
    exact ⟨hrow.published, fun heq => (by cases heq), fun _ => hrow.complete (hopened hopen),
      fun _ => hrow.one_mode (hopened hopen), fun heq => (by cases heq)⟩
  | confirmed hopen hdeadline =>
    refine ⟨hrow.published, hrow.unpublished, fun _ => ?_, fun _ => ?_, hrow.contact⟩
    · exact ⟨(hrow.complete (hopened hopen)).1, Option.some_ne_none _⟩
    · exact ⟨fun _ => Option.some_ne_none _, fun _ => hdeadline⟩
  | @revoked channel closeIfLast rid hpublic hlive =>
    -- A recruitment with a public revision is no draft.
    have hdraft : row.status ≠ .draft := by
      intro heq
      rw [hrow.unpublished heq] at hpublic
      cases hpublic
    refine ⟨hrow.published, ?_, fun _ => hrow.complete hdraft, fun _ => hrow.one_mode hdraft, ?_⟩
    · intro heq
      dsimp only at heq
      split at heq
      · cases heq
      · exact absurd heq hdraft
    · intro hopen
      dsimp only at hopen
      split at hopen
      · cases hopen
      next hmore =>
        unfold RecruitmentDb.publicContacts
        dsimp only
        rw [hpublic]
        exact liveContacts_putRevocation_ne_nil hlive hmore

end Rows

section Invariant

variable {digests : RecruitmentDigests} {now : Instant} {db db' : RecruitmentDb}
  {w w' : RecruitmentWorld}

structure RecruitmentsSound (w : RecruitmentWorld) : Prop where
  rows : ∀ id row, w.db.recruitments.get id = some row → RowSound w.db id row
  filed : ∀ rid channel, w.db.revisions.get rid = none → w.db.contacts.get (rid, channel) = none
  drawn : ∀ id row cycle, w.db.recruitments.get id = some row → row.cycleId = some cycle →
    w.cycles.get cycle ≠ none

/-- What a command may touch: revisions stay, and of the contacts only those of a new revision or
of its own public one change. -/
theorem Effect.frame {id : RecruitmentId} {row row' : RecruitmentDraft} {revision : RevisionId}
    {cycle : CycleId} {command : RecruitmentCommand}
    (h : Effect db now id row revision cycle command db' row')
    (hfresh : db.revisions.get revision = none)
    (hcontacts : ∀ channel, db.contacts.get (revision, channel) = none) :
    (∀ rid r, db.revisions.get rid = some r → db'.revisions.get rid = some r) ∧
      (∀ rid, rid ≠ revision → row.publicRevisionId ≠ some rid →
        ∀ channel, db'.contacts.get (rid, channel) = db.contacts.get (rid, channel)) ∧
      (db'.revisions.get revision = none → ∀ channel,
        db'.contacts.get (revision, channel) = none) := by
  cases h with
  | published =>
    refine ⟨?_, ?_, ?_⟩
    · intro rid r hr
      refine (Table.get_put_of_ne _ _ ?_).trans hr
      rintro rfl
      rw [hfresh] at hr
      cases hr
    · intro rid hne _ channel
      exact get_putPublication_of_ne hcontacts hne
    · intro hnone
      rw [RecruitmentDb.putPublication, Table.get_put_self] at hnone
      cases hnone
  | revoked hpublic =>
    refine ⟨fun _ _ hr => hr, fun rid _ hother channel => ?_, fun _ channel => ?_⟩
    · refine get_putRevocation_of_ne fun heq => hother ?_
      rw [(Prod.mk.inj heq).1]
      exact hpublic
    · rw [get_putRevocation, hcontacts]
      rfl
  | _ => exact ⟨fun _ _ hr => hr, fun _ _ _ _ => rfl, fun _ => hcontacts⟩

theorem Effect.cycle {id : RecruitmentId} {row row' : RecruitmentDraft} {revision : RevisionId}
    {cycle : CycleId} {command : RecruitmentCommand}
    (h : Effect db now id row revision cycle command db' row') :
    row'.cycleId = row.cycleId ∨ row'.cycleId = some cycle := by
  cases h with
  | published =>
    dsimp only [RecruitmentDb.publishedRow]
    split
    · exact .inr rfl
    · exact .inl rfl
  | confirmed => exact .inr rfl
  | _ => exact .inl rfl

/-- A row of its own beside rows that a transaction leaves alone. -/
theorem rows_put {id : RecruitmentId} {row : RecruitmentDraft}
    (hothers : ∀ id' row', id' ≠ id → db.recruitments.get id' = some row' → RowSound db' id' row')
    (hrow : RowSound db' id row) (id' : RecruitmentId) (row' : RecruitmentDraft)
    (h : (db.recruitments.put id row).get id' = some row') : RowSound db' id' row' := by
  rcases Table.get_put_eq_some h with ⟨rfl, rfl⟩ | ⟨hne, hold⟩
  · exact hrow
  · exact hothers id' row' hne hold

theorem drawn_mono (call : RecruitmentCall) {cycles : Table CycleId Unit} {cycle : CycleId}
    (h : cycles.get cycle ≠ none) : (call.drawn cycles).get cycle ≠ none := by
  cases call with
  | run actor projectId id payload revision cycle' =>
    change (cycles.put cycle' ()).get cycle ≠ none
    rw [Table.get_put]
    split
    · exact Option.some_ne_none _
    · exact h
  | _ => exact h

theorem RecruitmentsSound.change {call : RecruitmentCall} (hw : RecruitmentsSound w)
    (hfresh : call.Fresh w) (h : RecruitmentChange digests now w.db call db') :
    RecruitmentsSound ⟨db', now, call.drawn w.cycles⟩ := by
  have hsame : ∀ id row cycle, w.db.recruitments.get id = some row → row.cycleId = some cycle →
      (call.drawn w.cycles).get cycle ≠ none :=
    fun id row cycle hrow hcycle => drawn_mono call (hw.drawn id row cycle hrow hcycle)
  cases h with
  | nothing => exact ⟨hw.rows, hw.filed, hsame⟩
  | @created actor projectId requestId fields id =>
    refine ⟨rows_put (fun id' row' _ hrow' => (hw.rows id' row' hrow').same rfl rfl) ?_, hw.filed, ?_⟩
    · constructor
      · intro rid hpublic
        cases hpublic
      · exact fun _ => rfl
      · exact fun hne => absurd rfl hne
      · exact fun hne => absurd rfl hne
      · exact fun heq => (by cases heq)
    · intro id' row' cycle hrow' hcycle
      rcases Table.get_put_eq_some hrow' with ⟨_, rfl⟩ | ⟨_, hold⟩
      · cases hcycle
      · exact hsame id' row' cycle hold hcycle
  | @ran actor projectId id payload revision cycle row row₁ db₁ hrow hnew hversion heffect =>
    have hcontacts : ∀ channel, w.db.contacts.get (revision, channel) = none :=
      fun channel => hw.filed revision channel hfresh.1
    obtain ⟨hrevisions, hothers, hunfiled⟩ := heffect.frame hfresh.1 hcontacts
    have hrow₁ := (hw.rows id row hrow).effect hcontacts heffect
    refine ⟨?_, ?_, ?_⟩
    · change ∀ id' row', (db₁.recruitments.put id _).get id' = some row' → _
      rw [heffect.tables.1]
      refine @rows_put w.db _ _ _ (fun id' row' hne hrow' => ?_) ?_
      · refine @RowSound.same db₁ _ _ _ ?_ rfl rfl
        refine (hw.rows id' row' hrow').frame hrevisions fun rid hpublic => hothers rid ?_ ?_
        · rintro rfl
          obtain ⟨r, hr, _⟩ := (hw.rows id' row' hrow').published rid hpublic
          rw [hfresh.1] at hr
          cases hr
        · -- A revision belongs to one recruitment.
          intro hpublic'
          obtain ⟨r, hr, hof, _⟩ := (hw.rows id' row' hrow').published rid hpublic
          obtain ⟨r', hr', hof', _⟩ := (hw.rows id row hrow).published rid hpublic'
          obtain rfl := Option.some.inj (hr.symm.trans hr')
          exact hne (hof.symm.trans hof')
      · refine @RowSound.same db₁ _ _ _ ?_ rfl rfl
        exact ⟨hrow₁.published, hrow₁.unpublished, hrow₁.complete, hrow₁.one_mode, hrow₁.contact⟩
    · intro rid channel hnone
      change db₁.revisions.get rid = none at hnone
      change db₁.contacts.get (rid, channel) = none
      by_cases heq : rid = revision
      · subst heq
        exact hunfiled hnone channel
      · have hold : w.db.revisions.get rid = none := by
          cases hrid : w.db.revisions.get rid with
          | none => rfl
          | some r =>
            rw [hrevisions rid r hrid] at hnone
            cases hnone
        rw [hothers rid heq]
        · exact hw.filed rid channel hold
        · intro hpublic
          obtain ⟨r, hr, _⟩ := (hw.rows id row hrow).published rid hpublic
          rw [hold] at hr
          cases hr
    · intro id' row' cycle' hrow' hcycle'
      change (db₁.recruitments.put id _).get id' = some row' at hrow'
      rw [heffect.tables.1] at hrow'
      rcases Table.get_put_eq_some hrow' with ⟨_, rfl⟩ | ⟨_, hold⟩
      · rcases heffect.cycle with heq | heq
        · exact hsame id row cycle' hrow (heq.symm.trans hcycle')
        · obtain rfl : cycle = cycle' := Option.some.inj (heq.symm.trans hcycle')
          change (w.cycles.put cycle ()).get cycle ≠ none
          rw [Table.get_put_self]
          exact Option.some_ne_none _
      · exact hsame id' row' cycle' hold hcycle'
  | @expired id row hrow hopen hdue =>
    have hrow₁ := hw.rows id row hrow
    have hdraft : row.status ≠ .draft := by
      rw [hopen]
      exact fun heq => (by cases heq)
    refine ⟨rows_put (fun id' row' _ hrow' => (hw.rows id' row' hrow').same rfl rfl) ?_, hw.filed, ?_⟩
    · exact ⟨hrow₁.published, fun heq => (by cases heq), fun _ => hrow₁.complete hdraft,
        fun _ => hrow₁.one_mode hdraft, fun heq => (by cases heq)⟩
    · intro id' row' cycle hrow' hcycle
      rcases Table.get_put_eq_some hrow' with ⟨_, rfl⟩ | ⟨_, hold⟩
      · exact hsame id row cycle hrow hcycle
      · exact hsame id' row' cycle hold hcycle
  | @reminded id delivery row project cycle due hrow hcycle hdue hdeadline =>
    obtain ⟨hrecruitments, hrevisions, hcontacts, _⟩ := @recordReminder_tables w.db delivery
      ⟨id, cycle, due, project.ownerUserId, .pending, false⟩
    have hrow₁ := (hw.rows id row hrow).same hrevisions hcontacts
    refine ⟨?_, ?_, ?_⟩
    · change ∀ id' row', (Table.put (RecruitmentDb.recruitments _) id _).get id' = some row' → _
      rw [hrecruitments]
      refine @rows_put w.db _ _ _ (fun id' row' _ hrow' => ?_) ?_
      · exact (hw.rows id' row' hrow').same hrevisions hcontacts
      · refine RowSound.same ?_ rfl rfl
        exact ⟨hrow₁.published, hrow₁.unpublished, hrow₁.complete,
          fun _ => ⟨fun _ => Option.some_ne_none _, fun _ => hdeadline⟩, hrow₁.contact⟩
    · intro rid channel hnone
      have hfiled := hw.filed rid channel ((congrArg (·.get rid) hrevisions).symm.trans hnone)
      exact (congrArg (·.get (rid, channel)) hcontacts).trans hfiled
    · intro id' row' cycle' hrow' hcycle'
      change (Table.put (RecruitmentDb.recruitments _) id _).get id' = some row' at hrow'
      rw [hrecruitments] at hrow'
      rcases Table.get_put_eq_some hrow' with ⟨_, rfl⟩ | ⟨_, hold⟩
      · exact hsame id row cycle' hrow hcycle'
      · exact hsame id' row' cycle' hold hcycle'
  | claimed =>
    exact ⟨fun id row hrow => (hw.rows id row hrow).same rfl rfl, hw.filed, hsame⟩
  | skipped =>
    exact ⟨fun id row hrow => (hw.rows id row hrow).same rfl rfl, hw.filed, hsame⟩
  | finalized =>
    exact ⟨fun id row hrow => (hw.rows id row hrow).same rfl rfl, hw.filed, hsame⟩

/-- A row elsewhere is the same but for the moderation. -/
theorem RecruitmentElsewhere.row (h : RecruitmentElsewhere db db') {id : RecruitmentId}
    {row' : RecruitmentDraft} (hrow' : db'.recruitments.get id = some row') :
    ∃ row, db.recruitments.get id = some row ∧ row' = { row with takenDown := row'.takenDown } := by
  obtain ⟨takenDown, heq⟩ := h.recruitments id
  rw [heq] at hrow'
  obtain ⟨row, hrow, rfl⟩ := Option.map_eq_some_iff.mp hrow'
  exact ⟨row, hrow, rfl⟩

theorem RecruitmentsSound.step {call : Option RecruitmentCall} (hw : RecruitmentsSound w)
    (h : RecruitmentStep digests w call w') : RecruitmentsSound w' := by
  cases h with
  | call c hnow hfresh => exact hw.change hfresh (recruitment_change c)
  | elsewhere h =>
    refine ⟨?_, ?_, ?_⟩
    · intro id row' hrow'
      obtain ⟨row, hrow, heq⟩ := h.row hrow'
      have hsound := (hw.rows id row hrow).same h.revisions h.contacts
      rw [heq]
      exact ⟨hsound.published, hsound.unpublished, hsound.complete, hsound.one_mode, hsound.contact⟩
    · rw [h.revisions, h.contacts]
      exact hw.filed
    · intro id row' cycle hrow' hcycle
      obtain ⟨row, hrow, heq⟩ := h.row hrow'
      rw [heq] at hcycle
      exact hw.drawn id row cycle hrow hcycle

theorem RecruitmentWorld.Initial.sound (h : w.Initial) : RecruitmentsSound w := by
  refine ⟨?_, ?_, ?_⟩
  · intro id row hrow
    rw [h.recruitments] at hrow
    cases hrow
  · intro rid channel _
    rw [h.contacts]
    rfl
  · intro id row cycle hrow
    rw [h.recruitments] at hrow
    cases hrow

theorem recruitments_sound (hw : (recruitmentSystem digests).Reach w) : RecruitmentsSound w := by
  induction hw with
  | init hinit => exact RecruitmentWorld.Initial.sound hinit
  | step _ hstep ih => exact RecruitmentsSound.step ih hstep

end Invariant

section Cycles

variable {digests : RecruitmentDigests} {now : Instant} {w w' : RecruitmentWorld}
  {id : RecruitmentId} {row row' : RecruitmentDraft}

inductive RowChange (digests : RecruitmentDigests) (db : RecruitmentDb) (now : Instant)
    (id : RecruitmentId) (row : RecruitmentDraft) : RecruitmentCall → RecruitmentDraft → Prop
  | ran {actor : Actor} {projectId : ProjectId} {payload : RecruitmentPayload}
      {revision : RevisionId} {cycle : CycleId} {row₁ : RecruitmentDraft} {db₁ : RecruitmentDb}
      (heffect : Effect db now id row revision cycle payload.command db₁ row₁) :
      RowChange digests db now id row (.run actor projectId id payload revision cycle)
        { row₁ with version := row₁.version + 1, updatedAt := now }
  | expired (hopen : row.status = .opened) :
      RowChange digests db now id row (.expireIfDue id)
        { row with status := .expired, version := row.version + 1, updatedAt := now }
  | reminded {delivery : DeliveryId} {cycle : CycleId} {due : Instant}
      (hcycle : row.cycleId = some cycle) (hdue : row.nextRemindAt = some due)
      (hdeadline : row.deadlineAt = none) (hpast : due ≤ now) :
      RowChange digests db now id row (.remindIfDue id delivery)
        { row with
          nextRemindAt := some (nextReminderDue due now)
          version := row.version + 1
          updatedAt := now }

/-- The row of a put is the new one or the old one of another recruitment. -/
theorem row_of_put {t : Table RecruitmentId RecruitmentDraft} {id₀ : RecruitmentId}
    {row₀ : RecruitmentDraft} (hrow : t.get id = some row)
    (hrow' : (t.put id₀ row₀).get id = some row') : id = id₀ ∧ row' = row₀ ∨ row' = row := by
  rcases Table.get_put_eq_some hrow' with ⟨rfl, rfl⟩ | ⟨_, hold⟩
  · exact .inl ⟨rfl, rfl⟩
  · exact .inr (Option.some.inj (hold.symm.trans hrow))

theorem RecruitmentChange.row_change {call : RecruitmentCall} {db' : RecruitmentDb}
    (h : RecruitmentChange digests now w.db call db') (hfresh : call.Fresh w)
    (hrow : w.db.recruitments.get id = some row)
    (hrow' : db'.recruitments.get id = some row') :
    row' = row ∨ RowChange digests w.db now id row call row' := by
  have hsame : w.db.recruitments.get id = some row' → row' = row :=
    fun hold => Option.some.inj (hold.symm.trans hrow)
  cases h with
  | created =>
    rcases row_of_put hrow hrow' with ⟨rfl, _⟩ | hold
    · rw [hfresh] at hrow
      cases hrow
    · exact .inl hold
  | @ran actor projectId id₀ payload revision cycle row₀ row₁ db₁ hrow₀ _ _ heffect =>
    change (db₁.recruitments.put id₀ _).get id = some row' at hrow'
    rw [heffect.tables.1] at hrow'
    rcases row_of_put hrow hrow' with ⟨rfl, rfl⟩ | hold
    · obtain rfl : row = row₀ := Option.some.inj (hrow.symm.trans hrow₀)
      exact .inr (.ran heffect)
    · exact .inl hold
  | expired hrow₀ hopen =>
    rcases row_of_put hrow hrow' with ⟨rfl, rfl⟩ | hold
    · obtain rfl := Option.some.inj (hrow.symm.trans hrow₀)
      exact .inr (.expired hopen)
    · exact .inl hold
  | @reminded id₀ delivery row₀ project cycle due hrow₀ hcycle hdue hdeadline hpast =>
    change (Table.put (RecruitmentDb.recruitments _) id₀ _).get id = some row' at hrow'
    rw [recordReminder_tables.1] at hrow'
    rcases row_of_put hrow hrow' with ⟨rfl, rfl⟩ | hold
    · obtain rfl := Option.some.inj (hrow.symm.trans hrow₀)
      exact .inr (.reminded hcycle hdue hdeadline hpast)
    · exact .inl hold
  | _ => exact .inl (hsame hrow')

/-- The row between two states of a run, at the time of the later one. -/
theorem recruitment_row {call : Option RecruitmentCall} (h : RecruitmentStep digests w call w')
    (hrow : w.db.recruitments.get id = some row)
    (hrow' : w'.db.recruitments.get id = some row') :
    row' = { row with takenDown := row'.takenDown } ∨
      ∃ c, call = some c ∧ c.Fresh w ∧ RowChange digests w.db w'.now id row c row' := by
  cases h with
  | call c hnow hfresh =>
    rcases (recruitment_change c).row_change hfresh hrow hrow' with rfl | hchange
    · exact .inl rfl
    · exact .inr ⟨c, rfl, hfresh, hchange⟩
  | elsewhere h =>
    obtain ⟨row₀, hrow₀, heq⟩ := h.row hrow'
    obtain rfl := Option.some.inj (hrow.symm.trans hrow₀)
    exact .inl heq

/-- A switch of the mode and an opening draw the cycle of the row. -/
theorem RowChange.cycle {call : RecruitmentCall} (h : RowChange digests w.db now id row call row')
    (hfresh : call.Fresh w)
    (hturn : row'.deadlineAt.isNone ≠ row.deadlineAt.isNone ∨
      row.logicalStatus now ≠ .opened ∧ row'.logicalStatus now = .opened) :
    ∃ cycle, row'.cycleId = some cycle ∧ w.cycles.get cycle = none := by
  have hkept : row'.deadlineAt = row.deadlineAt → (row'.status = .opened → row.status = .opened) →
      ∃ cycle, row'.cycleId = some cycle ∧ w.cycles.get cycle = none := by
    intro hdeadline hstatus
    exfalso
    rcases hturn with hswitch | ⟨hnot, hopen⟩
    · exact hswitch (congrArg Option.isNone hdeadline)
    · obtain ⟨hopen, hahead⟩ := logicalStatus_opened_iff.mp hopen
      rw [hdeadline] at hahead
      exact hnot (logicalStatus_opened_iff.mpr ⟨hstatus hopen, hahead⟩)
  cases h with
  | @ran actor projectId payload revision cycle row₁ db₁ heffect =>
    generalize payload.command = command at heffect
    cases heffect with
    | updated => exact hkept rfl fun heq => heq
    | published =>
      refine ⟨cycle, ?_, hfresh.2⟩
      dsimp only [RecruitmentDb.publishedRow] at hturn ⊢
      rw [if_pos]
      rcases hturn with hswitch | ⟨hnot, _⟩
      · rw [Bool.or_eq_true, bne_iff_ne]
        exact .inr hswitch.symm
      · rw [Bool.or_eq_true, decide_eq_true_eq]
        exact .inl hnot
    | closed => exact hkept rfl fun heq => (by cases heq)
    | confirmed => exact ⟨cycle, rfl, hfresh.2⟩
    | revoked =>
      refine hkept rfl fun heq => ?_
      dsimp only at heq
      split at heq
      · cases heq
      · exact heq
  | expired => exact hkept rfl fun heq => (by cases heq)
  | reminded => exact hkept rfl fun heq => heq

theorem recruitment_cycle {call : Option RecruitmentCall} (hw : RecruitmentsSound w)
    (h : RecruitmentStep digests w call w') (hrow : w.db.recruitments.get id = some row)
    (hrow' : w'.db.recruitments.get id = some row')
    (hturn : row'.deadlineAt.isNone ≠ row.deadlineAt.isNone ∨
      row.logicalStatus w'.now ≠ .opened ∧ row'.logicalStatus w'.now = .opened) :
    ∃ cycle, row'.cycleId = some cycle ∧ w.cycles.get cycle = none ∧
      row.cycleId ≠ some cycle := by
  rcases recruitment_row h hrow hrow' with heq | ⟨c, _, hfresh, hchange⟩
  · rw [heq] at hturn
    rcases hturn with hswitch | ⟨hnot, hopen⟩
    · exact absurd rfl hswitch
    · exact absurd hopen hnot
  · obtain ⟨cycle, hcycle, hnew⟩ := hchange.cycle hfresh hturn
    exact ⟨cycle, hcycle, hnew, fun heq => hw.drawn id row cycle hrow heq hnew⟩

end Cycles

end CampusQuest.Innovation
