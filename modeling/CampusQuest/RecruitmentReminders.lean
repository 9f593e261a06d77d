import CampusQuest.RecruitmentVisibility

/-!
The reminders of the recruitments without a deadline. A reminder is recorded in the cycle of its
recruitment before the schedule moves past it, so there is one for each due instant, and its
delivery asks again whether the cycle is still the one that is open.
-/

namespace CampusQuest.Innovation

open Guards Tables Runs
open Lifecycle (Account UserStatus)

section Schedule

/-- The next reminder is the first one of the period after now. -/
theorem nextReminderDue_least {due now : Instant} (h : due ≤ now) :
    ∃ k : ℕ, 1 ≤ k ∧ nextReminderDue due now = due + k * reminderPeriod ∧
      now < due + k * reminderPeriod ∧
      ∀ j : ℕ, 1 ≤ j → now < due + j * reminderPeriod → k ≤ j := by
  have hlate : (0 : ℤ) ≤ now - due := sub_nonneg.mpr h
  have hperiod : (0 : ℤ) < reminderPeriod := by decide
  obtain ⟨q, hq⟩ := Int.eq_ofNat_of_zero_le (Int.ediv_nonneg hlate hperiod.le)
  have hbelow : (q : ℤ) * reminderPeriod ≤ now - due := by
    rw [← hq]
    exact Int.ediv_mul_le _ hperiod.ne'
  have habove : now - due < ((q : ℤ) + 1) * reminderPeriod := by
    rw [← hq]
    exact Int.lt_ediv_add_one_mul_self _ hperiod
  refine ⟨q + 1, Nat.le_add_left 1 q, ?_, ?_, ?_⟩
  · unfold nextReminderDue
    rw [if_neg (not_lt.mpr h), hq]
    push_cast
    rfl
  · push_cast
    linarith
  · intro j _ hj
    by_contra hlt
    have hle : (j : ℤ) ≤ q := by omega
    have hmul : (j : ℤ) * reminderPeriod ≤ q * reminderPeriod :=
      mul_le_mul_of_nonneg_right hle hperiod.le
    linarith

theorem lt_nextReminderDue {due now : Instant} (h : due ≤ now) :
    due < nextReminderDue due now ∧ now < nextReminderDue due now := by
  obtain ⟨k, _, heq, hlt, _⟩ := nextReminderDue_least h
  rw [heq]
  exact ⟨lt_of_le_of_lt h hlt, hlt⟩

end Schedule

section Rows

variable {digests : RecruitmentDigests} {now : Instant} {w w' : RecruitmentWorld}
  {id : RecruitmentId} {row row' : RecruitmentDraft} {c : CycleId} {due : Instant}

def RecruitmentDraft.Past (row : RecruitmentDraft) (c : CycleId) (due : Instant) : Prop :=
  row.cycleId = some c → row.deadlineAt = none ∧ ∀ next, row.nextRemindAt = some next → due < next

def RecruitmentDraft.Obsolete (row : RecruitmentDraft) (c : CycleId) : Prop :=
  row.cycleId ≠ some c ∨ row.status ≠ .opened

/-- A command that opens a recruitment or switches its mode draws a cycle; in the old one the
schedule goes on. -/
theorem publishedRow_cycle {newCycle : Bool} (now : Instant) (revision : RevisionId)
    {cycle : CycleId}
    (h : (RecruitmentDb.publishedRow now row newCycle revision cycle).cycleId = some c)
    (hne : cycle ≠ c) :
    newCycle = false ∧ row.cycleId = some c ∧
      row.deadlineAt.isNone = row.fields.content.deadlineAt.isNone := by
  dsimp only [RecruitmentDb.publishedRow] at h
  split at h
  · exact absurd (Option.some.inj h) hne
  next hsame =>
    rw [Bool.or_eq_true, not_or, bne_iff_ne, not_not, Bool.not_eq_true] at hsame
    exact ⟨hsame.1, h, hsame.2⟩

theorem RowChange.past {call : RecruitmentCall} (h : RowChange digests w.db now id row call row')
    (hfresh : call.Fresh w) (hdrawn : w.cycles.get c ≠ none) (hpast : row.Past c due) :
    row'.Past c due := by
  cases h with
  | @ran actor projectId payload revision cycle row₁ db₁ heffect =>
    have hne : cycle ≠ c := fun heq => hdrawn (heq ▸ hfresh.2)
    generalize payload.command = command at heffect
    cases heffect with
    | published =>
      intro hcycle
      obtain ⟨hopen, hold, hmode⟩ := publishedRow_cycle now revision hcycle hne
      obtain ⟨hdeadline, hnext⟩ := hpast hold
      rw [hdeadline, Option.isNone_none, eq_comm, Option.isNone_iff_eq_none] at hmode
      dsimp only [RecruitmentDb.publishedRow]
      rw [hmode, hdeadline, hopen]
      exact ⟨rfl, hnext⟩
    | confirmed => exact fun hcycle => absurd (Option.some.inj hcycle) hne
    | updated => exact hpast
    | closed => exact hpast
    | revoked => exact hpast
  | expired => exact hpast
  | reminded hcycle hdue hdeadline hle =>
    intro hcycle
    obtain ⟨_, hnext⟩ := hpast hcycle
    refine ⟨hdeadline, fun next heq => ?_⟩
    obtain rfl := Option.some.inj heq
    exact (hnext _ hdue).trans (lt_nextReminderDue hle).1

theorem RowChange.obsolete {call : RecruitmentCall}
    (h : RowChange digests w.db now id row call row') (hfresh : call.Fresh w)
    (hdrawn : w.cycles.get c ≠ none) (hobsolete : row.Obsolete c) : row'.Obsolete c := by
  cases h with
  | @ran actor projectId payload revision cycle row₁ db₁ heffect =>
    have hne : cycle ≠ c := fun heq => hdrawn (heq ▸ hfresh.2)
    generalize payload.command = command at heffect
    cases heffect with
    | published =>
      by_contra hcurrent
      obtain ⟨hcycle, _⟩ := not_or.mp hcurrent
      obtain ⟨hopen, hold, _⟩ := publishedRow_cycle now revision (not_not.mp hcycle) hne
      rw [decide_eq_false_iff_not, not_not] at hopen
      rcases hobsolete with hother | hclosed
      · exact hother hold
      · exact hclosed (logicalStatus_opened hopen)
    | confirmed => exact .inl fun hcycle => hne (Option.some.inj hcycle)
    | updated => exact hobsolete
    | closed => exact .inr fun heq => (by cases heq)
    | revoked =>
      refine hobsolete.imp_right fun hclosed heq => ?_
      dsimp only at heq
      split at heq
      · cases heq
      · exact hclosed heq
  | expired => exact .inr fun heq => (by cases heq)
  | reminded => exact hobsolete

/-- A cycle that was drawn stays so. -/
theorem cycles_mono {call : Option RecruitmentCall} (h : RecruitmentStep digests w call w')
    (hdrawn : w.cycles.get c ≠ none) : w'.cycles.get c ≠ none := by
  cases h with
  | call call => exact drawn_mono call hdrawn
  | elsewhere => exact hdrawn

/-- A recruitment is never deleted. -/
theorem recruitment_persists {call : Option RecruitmentCall}
    (h : RecruitmentStep digests w call w') (hrow : w.db.recruitments.get id = some row) :
    ∃ row', w'.db.recruitments.get id = some row' := by
  have hput : ∀ {t : Table RecruitmentId RecruitmentDraft} (id₀ : RecruitmentId)
      (row₀ : RecruitmentDraft), t = w.db.recruitments →
      ∃ row', (t.put id₀ row₀).get id = some row' := by
    rintro t id₀ row₀ rfl
    rw [Table.get_put]
    split
    · exact ⟨row₀, rfl⟩
    · exact ⟨row, hrow⟩
  cases h with
  | elsewhere h =>
    obtain ⟨takenDown, heq⟩ := h.recruitments id
    rw [hrow] at heq
    exact ⟨_, heq⟩
  | @call now call hnow hfresh =>
    have hchange : RecruitmentChange digests now w.db call (call.after digests now w.db) :=
      recruitment_change call
    dsimp only
    generalize call.after digests now w.db = db' at hchange
    cases hchange with
    | created => exact hput _ _ rfl
    | ran _ _ _ heffect => exact hput _ _ heffect.tables.1
    | expired => exact hput _ _ rfl
    | reminded => exact hput _ _ recordReminder_tables.1
    | _ => exact ⟨row, hrow⟩

end Rows

section Deliveries

variable {digests : RecruitmentDigests} {db : RecruitmentDb} {w w' : RecruitmentWorld}
  {d : DeliveryId} {r r' : ReminderDelivery}

theorem mem_recordReminder {delivery : DeliveryId}
    (h : (db.recordReminder delivery r).reminders.get d = some r') :
    db.reminders.get d = some r' ∨ d = delivery ∧ r' = r := by
  unfold RecruitmentDb.recordReminder at h
  split at h
  · exact .inl h
  · rcases Table.get_put_eq_some h with ⟨rfl, rfl⟩ | ⟨_, hold⟩
    · exact .inr ⟨rfl, rfl⟩
    · exact .inl hold

def ReminderDelivery.event (r : ReminderDelivery) : RecruitmentId × CycleId × Instant :=
  (r.recruitmentId, r.cycleId, r.dueAt)

theorem recordReminder_new {delivery : DeliveryId}
    (hnew : ∀ d r₀, db.reminders.get d = some r₀ → r₀.event ≠ r.event) :
    db.recordReminder delivery r = db.putReminder delivery r := by
  have hnone : (db.reminders.find fun _ r₀ => r₀.recruitmentId = r.recruitmentId ∧
      r₀.cycleId = r.cycleId ∧ r₀.dueAt = r.dueAt ∧ r₀.userId = r.userId) = none := by
    refine Table.find_eq_none fun d r₀ hr₀ hsame => hnew d r₀ hr₀ ?_
    obtain ⟨hof, hcycle, hdue, _⟩ := hsame
    unfold ReminderDelivery.event
    rw [hof, hcycle, hdue]
  unfold RecruitmentDb.recordReminder
  rw [hnone]
  rfl

/-- Where a delivery comes from. It keeps its event, and it becomes a real send only when it is
found to be current, or it is a new one for what is due. -/
inductive ReminderOrigin (w w' : RecruitmentWorld) (d : DeliveryId) (r' : ReminderDelivery) :
    Option RecruitmentCall → Prop
  | old {call : Option RecruitmentCall} {r : ReminderDelivery}
      (hr : w.db.reminders.get d = some r) (hevent : r'.event = r.event)
      (hsend : r'.RealSend → r.RealSend) : ReminderOrigin w w' d r' call
  | decided {r : ReminderDelivery} (hr : w.db.reminders.get d = some r)
      (hevent : r'.event = r.event)
      (hsend : r'.RealSend →
        w.db.lockCurrentReminder w'.now r.recruitmentId r.cycleId = true) :
      ReminderOrigin w w' d r' (some (.finalizeReminder d))
  | recorded {row row' : RecruitmentDraft}
      (hrow : w.db.recruitments.get r'.recruitmentId = some row)
      (hcycle : row.cycleId = some r'.cycleId) (hdue : row.nextRemindAt = some r'.dueAt)
      (hrow' : w'.db.recruitments.get r'.recruitmentId = some row')
      (hpast : row'.Past r'.cycleId r'.dueAt) (hpending : r'.status = .pending) :
      ReminderOrigin w w' d r' (some (.remindIfDue r'.recruitmentId d))

theorem reminder_origin {call : Option RecruitmentCall} (h : RecruitmentStep digests w call w')
    (hr' : w'.db.reminders.get d = some r') : ReminderOrigin w w' d r' call := by
  have hsame : ∀ {w' : RecruitmentWorld} {call : Option RecruitmentCall},
      w.db.reminders.get d = some r' → ReminderOrigin w w' d r' call :=
    fun hr => .old hr rfl fun hsend => hsend
  cases h with
  | elsewhere h =>
    obtain ⟨status, skipped, heq⟩ := h.reminders d
    have hrow := hr'
    rw [heq] at hrow
    obtain ⟨r, hr, rfl⟩ := Option.map_eq_some_iff.mp hrow
    exact .old hr rfl (h.decided d r _ hr hr')
  | @call now call hnow hfresh =>
    have hchange : RecruitmentChange digests now w.db call (call.after digests now w.db) :=
      recruitment_change call
    dsimp only at hr'
    generalize call.after digests now w.db = db' at hchange hr' ⊢
    cases hchange with
    | @ran actor projectId id payload revision cycle row row₁ db₁ _ _ _ heffect =>
      change db₁.reminders.get d = some r' at hr'
      rw [heffect.tables.2.2.1] at hr'
      exact hsame hr'
    | reminded hrow hcycle hdue hdeadline hle =>
      rcases mem_recordReminder hr' with hold | ⟨rfl, rfl⟩
      · exact hsame hold
      · refine .recorded hrow hcycle hdue (Table.get_put_self _ _ _) (fun _ => ?_) rfl
        refine ⟨hdeadline, fun next heq => ?_⟩
        obtain rfl := Option.some.inj heq
        exact (lt_nextReminderDue hle).1
    | @claimed delivery r hr =>
      rcases Table.get_put_eq_some hr' with ⟨rfl, rfl⟩ | ⟨_, hold⟩
      · exact .old hr rfl fun hsend => (by cases hsend.1)
      · exact hsame hold
    | @skipped delivery r hr =>
      rcases Table.get_put_eq_some hr' with ⟨rfl, rfl⟩ | ⟨_, hold⟩
      · exact .old hr rfl fun hsend => (by cases hsend.2)
      · exact hsame hold
    | @finalized delivery r hr =>
      rcases Table.get_put_eq_some hr' with ⟨rfl, rfl⟩ | ⟨_, hold⟩
      · refine .decided hr rfl fun hsend => ?_
        exact (Bool.not_eq_false _).mp fun hfalse => by
          have hmarked := hsend.2
          dsimp only at hmarked hfalse
          rw [hfalse] at hmarked
          cases hmarked
      · exact hsame hold
    | _ => exact hsame hr'

/-- A delivery is never deleted. -/
theorem reminder_persists {call : Option RecruitmentCall} (h : RecruitmentStep digests w call w')
    (hr : w.db.reminders.get d = some r) : ∃ r', w'.db.reminders.get d = some r' := by
  have hput : ∀ (d₀ : DeliveryId) (r₀ : ReminderDelivery),
      ∃ r', (w.db.reminders.put d₀ r₀).get d = some r' := by
    intro d₀ r₀
    rw [Table.get_put]
    split
    · exact ⟨r₀, rfl⟩
    · exact ⟨r, hr⟩
  cases h with
  | elsewhere h =>
    obtain ⟨status, skipped, heq⟩ := h.reminders d
    rw [hr] at heq
    exact ⟨_, heq⟩
  | @call now call hnow hfresh =>
    have hchange : RecruitmentChange digests now w.db call (call.after digests now w.db) :=
      recruitment_change call
    dsimp only
    generalize call.after digests now w.db = db' at hchange
    cases hchange with
    | ran _ _ _ heffect =>
      refine ⟨r, ?_⟩
      rw [← hr, ← heffect.tables.2.2.1]
      rfl
    | @reminded id delivery row project cycle due =>
      change ∃ r', (RecruitmentDb.recordReminder _ _ _).reminders.get d = some r'
      unfold RecruitmentDb.recordReminder
      split
      · exact ⟨r, hr⟩
      · exact hput _ _
    | claimed => exact hput _ _
    | skipped => exact hput _ _
    | finalized => exact hput _ _
    | _ => exact ⟨r, hr⟩

structure RemindersSound (w : RecruitmentWorld) : Prop where
  of_row : ∀ d r, w.db.reminders.get d = some r → ∃ row,
    w.db.recruitments.get r.recruitmentId = some row ∧ w.cycles.get r.cycleId ≠ none ∧
      row.Past r.cycleId r.dueAt
  unique : ∀ d d' r r', w.db.reminders.get d = some r → w.db.reminders.get d' = some r' →
    r.event = r'.event → d = d'

/-- What is recorded of a recruitment stays behind its schedule. -/
theorem RemindersSound.past {call : Option RecruitmentCall} (hw : RemindersSound w)
    (hstep : RecruitmentStep digests w call w') (hr : w.db.reminders.get d = some r) :
    ∃ row, w'.db.recruitments.get r.recruitmentId = some row ∧ w'.cycles.get r.cycleId ≠ none ∧
      row.Past r.cycleId r.dueAt := by
  obtain ⟨row, hrow, hdrawn, hpast⟩ := hw.of_row d r hr
  obtain ⟨row', hrow'⟩ := recruitment_persists hstep hrow
  refine ⟨row', hrow', cycles_mono hstep hdrawn, ?_⟩
  rcases recruitment_row hstep hrow hrow' with heq | ⟨c, _, hfresh, hchange⟩
  · rw [heq]
    exact hpast
  · exact hchange.past hfresh hdrawn hpast

/-- A new reminder is for an instant that no other one of its cycle is for. -/
theorem RemindersSound.new_due {row : RecruitmentDraft} (hw : RemindersSound w)
    (hrow : w.db.recruitments.get r'.recruitmentId = some row)
    (hcycle : row.cycleId = some r'.cycleId) (hdue : row.nextRemindAt = some r'.dueAt)
    (hr : w.db.reminders.get d = some r) : r.event ≠ r'.event := by
  intro hevent
  obtain ⟨hof, hsame⟩ := Prod.mk.inj hevent
  obtain ⟨hsame, hinstant⟩ := Prod.mk.inj hsame
  obtain ⟨row₀, hrow₀, _, hpast⟩ := hw.of_row d r hr
  rw [hof] at hrow₀
  obtain rfl := Option.some.inj (hrow.symm.trans hrow₀)
  rw [hsame] at hpast
  exact absurd hinstant ((hpast hcycle).2 _ hdue).ne

/-- An old delivery, or a new one of this very call. -/
theorem ReminderOrigin.old_or_new {call : Option RecruitmentCall}
    (h : ReminderOrigin w w' d r' call) :
    (∃ r, w.db.reminders.get d = some r ∧ r'.event = r.event) ∨
      call = some (.remindIfDue r'.recruitmentId d) ∧ ∃ row,
        w.db.recruitments.get r'.recruitmentId = some row ∧ row.cycleId = some r'.cycleId ∧
          row.nextRemindAt = some r'.dueAt := by
  cases h with
  | old hr hevent => exact .inl ⟨_, hr, hevent⟩
  | decided hr hevent => exact .inl ⟨_, hr, hevent⟩
  | recorded hrow hcycle hdue => exact .inr ⟨rfl, _, hrow, hcycle, hdue⟩

theorem RemindersSound.step {call : Option RecruitmentCall} (hw : RemindersSound w)
    (hsound : RecruitmentsSound w) (hstep : RecruitmentStep digests w call w') :
    RemindersSound w' := by
  constructor
  · intro d r' hr'
    have hold : ∀ {r : ReminderDelivery}, w.db.reminders.get d = some r → r'.event = r.event →
        ∃ row, w'.db.recruitments.get r'.recruitmentId = some row ∧
          w'.cycles.get r'.cycleId ≠ none ∧ row.Past r'.cycleId r'.dueAt := by
      intro r hr hevent
      obtain ⟨hof, hrest⟩ := Prod.mk.inj hevent
      obtain ⟨hcycle, hdue⟩ := Prod.mk.inj hrest
      rw [hof, hcycle, hdue]
      exact hw.past hstep hr
    cases reminder_origin hstep hr' with
    | old hr hevent => exact hold hr hevent
    | decided hr hevent => exact hold hr hevent
    | @recorded row row' hrow hcycle _ hrow' hpast =>
      exact ⟨row', hrow', cycles_mono hstep (hsound.drawn _ row _ hrow hcycle), hpast⟩
  · intro d d' r r' hr hr' hevent
    rcases (reminder_origin hstep hr).old_or_new with ⟨r₀, hr₀, h₀⟩ | ⟨hcall, row, hrow, hcycle, hdue⟩
    · rcases (reminder_origin hstep hr').old_or_new with
        ⟨r₁, hr₁, h₁⟩ | ⟨_, row, hrow, hcycle, hdue⟩
      · exact hw.unique d d' r₀ r₁ hr₀ hr₁ (h₀.symm.trans (hevent.trans h₁))
      · exact absurd (h₀.symm.trans hevent) (hw.new_due hrow hcycle hdue hr₀)
    · rcases (reminder_origin hstep hr').old_or_new with ⟨r₁, hr₁, h₁⟩ | ⟨hcall', _⟩
      · exact absurd (h₁.symm.trans hevent.symm) (hw.new_due hrow hcycle hdue hr₁)
      · have hcalls := Option.some.inj (hcall.symm.trans hcall')
        exact (RecruitmentCall.remindIfDue.inj hcalls).2

theorem reminders_sound (hw : (recruitmentSystem digests).Reach w) : RemindersSound w := by
  induction hw with
  | init hinit =>
    constructor
    · intro d r hr
      rw [hinit.reminders] at hr
      cases hr
    · intro d d' r r' hr
      rw [hinit.reminders] at hr
      cases hr
  | step hw hstep ih => exact ih.step (recruitments_sound hw) hstep

end Deliveries

section Current

variable {digests : RecruitmentDigests} {w w' : RecruitmentWorld} {d : DeliveryId}
  {r r' : ReminderDelivery}

def Withdrawn (w : RecruitmentWorld) (d : DeliveryId) (r : ReminderDelivery) : Prop :=
  ∃ r₀, w.db.reminders.get d = some r₀ ∧ r₀.event = r.event ∧ ¬ r₀.RealSend ∧
    ∃ row, w.db.recruitments.get r.recruitmentId = some row ∧ row.Obsolete r.cycleId

/-- What a send finds before it decides. -/
theorem lockCurrentReminder_eq {now : Instant} {id : RecruitmentId} {cycle : CycleId}
    (h : w.db.lockCurrentReminder now id cycle = true) :
    ∃ row, w.db.recruitments.get id = some row ∧ row.cycleId = some cycle ∧
      row.deadlineAt = none ∧ w.db.Visible now row := by
  obtain ⟨row, hrow, h⟩ := (Option.any_eq_true _ _).mp h
  exact ⟨row, hrow, of_decide_eq_true h⟩

theorem Withdrawn.step {call : Option RecruitmentCall} (hw : RemindersSound w)
    (hstep : RecruitmentStep digests w call w') (h : Withdrawn w d r) : Withdrawn w' d r := by
  obtain ⟨r₀, hr₀, hevent, hsend, row, hrow, hobsolete⟩ := h
  obtain ⟨hof, hrest⟩ := Prod.mk.inj hevent
  obtain ⟨hcycle, _⟩ := Prod.mk.inj hrest
  obtain ⟨row', hrow'⟩ := recruitment_persists hstep hrow
  obtain ⟨r', hr'⟩ := reminder_persists hstep hr₀
  have hobsolete' : row'.Obsolete r.cycleId := by
    rcases recruitment_row hstep hrow hrow' with heq | ⟨c, _, hfresh, hchange⟩
    · rw [heq]
      exact hobsolete
    · obtain ⟨_, _, hdrawn, _⟩ := hw.of_row d r₀ hr₀
      rw [hcycle] at hdrawn
      exact hchange.obsolete hfresh hdrawn hobsolete
  cases reminder_origin hstep hr' with
  | old hr hsame hback =>
    obtain rfl := Option.some.inj (hr₀.symm.trans hr)
    exact ⟨r', hr', hsame.trans hevent, fun h => hsend (hback h), row', hrow', hobsolete'⟩
  | decided hr hsame hcurrent =>
    obtain rfl := Option.some.inj (hr₀.symm.trans hr)
    refine ⟨r', hr', hsame.trans hevent, fun h => ?_, row', hrow', hobsolete'⟩
    -- The decision reads the row as it is.
    obtain ⟨row₀, hrow₀, hcycle₀, _, hvisible⟩ := lockCurrentReminder_eq (hcurrent h)
    rw [hof] at hrow₀
    obtain rfl := Option.some.inj (hrow.symm.trans hrow₀)
    rcases hobsolete with hother | hclosed
    · exact hother (hcycle ▸ hcycle₀)
    · exact hclosed hvisible.1
  | recorded =>
    cases hstep with
    | call _ _ hfresh =>
      have hnone : w.db.reminders.get d = none := hfresh
      rw [hr₀] at hnone
      cases hnone

theorem withdrawn_run {l : List (RecruitmentWorld × Option RecruitmentCall × RecruitmentWorld)}
    (hw : (recruitmentSystem digests).Reach w) (h : Withdrawn w d r)
    (hrun : (recruitmentSystem digests).Run w l w') : Withdrawn w' d r :=
  hrun.keeps (P := fun u => Withdrawn u d r)
    (fun _ _ _ hu hP hstep => hP.step (reminders_sound hu) hstep) hw h

/-- A reminder that is due moves the schedule to the first instant of the period that is ahead,
and it is the only one that is recorded. -/
theorem remindIfDue_effect {now : Instant} {id : RecruitmentId} {delivery : DeliveryId}
    {row row' : RecruitmentDraft} (hw : RemindersSound w)
    (hrow : w.db.recruitments.get id = some row)
    (hrow' : (w.db.remindIfDue now id delivery).recruitments.get id = some row')
    (hchanged : row' ≠ row) :
    ∃ cycle due, row.cycleId = some cycle ∧ row.nextRemindAt = some due ∧ due ≤ now ∧
      row'.nextRemindAt = some (nextReminderDue due now) ∧
      ∃ r, r.event = (id, cycle, due) ∧ r.status = .pending ∧
        (w.db.remindIfDue now id delivery).reminders = w.db.reminders.put delivery r := by
  have hsame : w.db.recruitments.get id = some row' → False :=
    fun hold => hchanged (Option.some.inj (hold.symm.trans hrow))
  unfold RecruitmentDb.remindIfDue at hrow' ⊢
  rw [hrow] at hrow' ⊢
  dsimp only at hrow' ⊢
  split at hrow'
  next cycle due project hdue hproject =>
    obtain ⟨hcycle, hnext, _, hpast, _⟩ := dueReminder_eq hdue
    have hput : w.db.recordReminder delivery
        ⟨id, cycle, due, project.ownerUserId, .pending, false⟩ =
        w.db.putReminder delivery ⟨id, cycle, due, project.ownerUserId, .pending, false⟩ :=
      recordReminder_new fun d r hr => hw.new_due hrow hcycle hnext hr
    have hnew : row' = _ := (Option.some.inj ((Table.get_put_self _ _ _).symm.trans hrow')).symm
    rw [hput, hnew]
    exact ⟨cycle, due, hcycle, hnext, hpast, rfl, _, rfl, rfl, rfl⟩
  next => exact (hsame hrow').elim

/-- A new confirmation, a closing and a publication with a deadline end the cycle. -/
theorem run_withdraws {actor : Actor} {projectId : ProjectId} {id : RecruitmentId}
    {payload : RecruitmentPayload} {revision : RevisionId} {cycle : CycleId}
    {row row' : RecruitmentDraft}
    (hstep : RecruitmentStep digests w
      (some (.run actor projectId id payload revision cycle)) w')
    (heffect : TakesEffect id payload w.db w'.db)
    (hrow : w.db.recruitments.get id = some row) (hrow' : w'.db.recruitments.get id = some row')
    (hcommand : payload.command = .confirmActive ∨ payload.command = .close ∨
      (payload.command = .publish ∨ payload.command = .reopen) ∧
        row.fields.content.deadlineAt ≠ none) {c : CycleId} (hdrawn : w.cycles.get c ≠ none) :
    row'.cycleId ≠ some c ∨ row'.deadlineAt ≠ none ∨ row'.logicalStatus w'.now ≠ .opened := by
  cases hstep with
  | @call now _ hnow hfresh =>
    have hchange : RecruitmentChange digests now w.db
        (.run actor projectId id payload revision cycle)
        (RecruitmentCall.after digests now w.db
          (.run actor projectId id payload revision cycle)) := recruitment_change _
    have hne : cycle ≠ c := fun heq => hdrawn (heq ▸ hfresh.2)
    dsimp only at heffect hrow'
    generalize RecruitmentCall.after digests now w.db
      (.run actor projectId id payload revision cycle) = db' at heffect hchange hrow'
    cases hchange with
    | nothing => exact absurd heffect.new heffect.filed
    | @ran _ _ _ _ _ _ row₀ row₁ db₁ hrow₀ _ _ hdone =>
      obtain rfl := Option.some.inj (hrow.symm.trans hrow₀)
      have hnew : row' = { row₁ with version := row₁.version + 1, updatedAt := now } :=
        (Option.some.inj ((Table.get_put_self _ _ _).symm.trans hrow')).symm
      rw [hnew]
      generalize payload.command = command at hdone hcommand
      cases hdone with
      | published hpublication =>
        refine .inr (.inl ?_)
        rcases hcommand with rfl | rfl | ⟨_, hdeadline⟩
        · rcases hpublication with heq | heq <;> cases heq
        · rcases hpublication with heq | heq <;> cases heq
        · exact hdeadline
      | closed => exact .inr (.inr fun heq => absurd (logicalStatus_opened heq) (by simp))
      | confirmed => exact .inl fun heq => hne (Option.some.inj heq)
      | updated => simp at hcommand
      | revoked => simp at hcommand

/-- Confirmation reminders in every run. There is one for an instant of a cycle, it moves the
schedule past now whatever was missed, it becomes a real send only while the recruitment is
visible in the same cycle, and it never does once the cycle is over. -/
theorem reminders_once_and_current (digests : RecruitmentDigests) {w : RecruitmentWorld}
    (hw : (recruitmentSystem digests).Reach w) :
    (∀ d d' r r', w.db.reminders.get d = some r → w.db.reminders.get d' = some r' →
      r.recruitmentId = r'.recruitmentId → r.cycleId = r'.cycleId → r.dueAt = r'.dueAt → d = d') ∧
    (∀ now id delivery row row', w.db.recruitments.get id = some row →
      (w.db.remindIfDue now id delivery).recruitments.get id = some row' → row' ≠ row →
      ∃ cycle due, row.cycleId = some cycle ∧ row.nextRemindAt = some due ∧ due ≤ now ∧
        (∃ k : ℕ, 1 ≤ k ∧ row'.nextRemindAt = some (due + k * reminderPeriod) ∧
          now < due + k * reminderPeriod ∧
          ∀ j : ℕ, 1 ≤ j → now < due + j * reminderPeriod → k ≤ j) ∧
        ∃ r, r.event = (id, cycle, due) ∧ r.status = .pending ∧
          (w.db.remindIfDue now id delivery).reminders = w.db.reminders.put delivery r) ∧
    (∀ call w' d r', (recruitmentSystem digests).step w call w' →
      w'.db.reminders.get d = some r' → r'.RealSend →
      (∃ r, w.db.reminders.get d = some r ∧ r.RealSend) ∨
        call = some (.finalizeReminder d) ∧ ∃ row,
          w.db.recruitments.get r'.recruitmentId = some row ∧ row.cycleId = some r'.cycleId ∧
            row.deadlineAt = none ∧ row.logicalStatus w'.now = .opened ∧ row.takenDown = false ∧
            w.db.OwnerEffective row.projectId ∧ w.db.publicContacts row ≠ []) ∧
    (∀ d r row l w' r', w.db.reminders.get d = some r → ¬ r.RealSend →
      w.db.recruitments.get r.recruitmentId = some row →
      (row.cycleId ≠ some r.cycleId ∨ row.deadlineAt ≠ none ∨
        row.logicalStatus w.now ≠ .opened) →
      (recruitmentSystem digests).Run w l w' → w'.db.reminders.get d = some r' →
      ¬ r'.RealSend) ∧
    (∀ actor projectId payload revision cycle w' d r row row',
      (recruitmentSystem digests).step w
        (some (.run actor projectId r.recruitmentId payload revision cycle)) w' →
      TakesEffect r.recruitmentId payload w.db w'.db → w.db.reminders.get d = some r →
      w.db.recruitments.get r.recruitmentId = some row →
      w'.db.recruitments.get r.recruitmentId = some row' →
      (payload.command = .confirmActive ∨ payload.command = .close ∨
        (payload.command = .publish ∨ payload.command = .reopen) ∧
          row.fields.content.deadlineAt ≠ none) →
      row'.cycleId ≠ some r.cycleId ∨ row'.deadlineAt ≠ none ∨
        row'.logicalStatus w'.now ≠ .opened) := by
  have hsound : RecruitmentsSound w := recruitments_sound hw
  have hreminders : RemindersSound w := reminders_sound hw
  refine ⟨?_, ?_, ?_, ?_, ?_⟩
  · intro d d' r r' hr hr' hof hcycle hdue
    refine hreminders.unique d d' r r' hr hr' ?_
    unfold ReminderDelivery.event
    rw [hof, hcycle, hdue]
  · intro now id delivery row row' hrow hrow' hchanged
    obtain ⟨cycle, due, hcycle, hdue, hpast, hnext, hrecorded⟩ :=
      remindIfDue_effect hreminders hrow hrow' hchanged
    obtain ⟨k, hk, heq, hahead, hleast⟩ := nextReminderDue_least hpast
    rw [heq] at hnext
    exact ⟨cycle, due, hcycle, hdue, hpast, ⟨k, hk, hnext, hahead, hleast⟩, hrecorded⟩
  · intro call w' d r' hstep hr' hsend
    cases reminder_origin hstep hr' with
    | old hr _ hback => exact .inl ⟨_, hr, hback hsend⟩
    | @decided r hr hevent hcurrent =>
      obtain ⟨hof, hrest⟩ := Prod.mk.inj hevent
      obtain ⟨hcycle, _⟩ := Prod.mk.inj hrest
      obtain ⟨row, hrow, hcycle₀, hdeadline, hvisible⟩ := lockCurrentReminder_eq (hcurrent hsend)
      obtain ⟨hopen, hup, howner, hcontact⟩ := (visible_iff (hsound.rows _ row hrow)).mp hvisible
      rw [← hof] at hrow
      rw [← hcycle] at hcycle₀
      exact .inr ⟨rfl, row, hrow, hcycle₀, hdeadline, hopen, hup, howner, hcontact⟩
    | recorded _ _ _ _ _ hpending =>
      rw [hsend.1] at hpending
      cases hpending
  · intro d r row l w' r' hr hsend hrow hover hrun hr'
    obtain ⟨row₀, hrow₀, _, hpast⟩ := hreminders.of_row d r hr
    obtain rfl := Option.some.inj (hrow.symm.trans hrow₀)
    have hobsolete : row.Obsolete r.cycleId := by
      by_cases hcycle : row.cycleId = some r.cycleId
      · -- In the cycle of a reminder there is no deadline, so the clock closes nothing.
        obtain ⟨hdeadline, _⟩ := hpast hcycle
        rcases hover with hother | hswitched | hclosed
        · exact .inl hother
        · exact absurd hdeadline hswitched
        · refine .inr fun hopen => hclosed (logicalStatus_opened_iff.mpr ⟨hopen, ?_⟩)
          rw [hdeadline]
          rfl
      · exact .inl hcycle
    obtain ⟨r₁, hr₁, _, hnot, _⟩ := withdrawn_run hw ⟨r, hr, rfl, hsend, row, hrow, hobsolete⟩ hrun
    obtain rfl := Option.some.inj (hr₁.symm.trans hr')
    exact hnot
  · intro actor projectId payload revision cycle w' d r row row' hstep heffect hr hrow hrow' hcommand
    obtain ⟨_, _, hdrawn, _⟩ := hreminders.of_row d r hr
    exact run_withdraws hstep heffect hrow hrow' hcommand hdrawn

end Current

section Notice

def noticeFields : RecruitmentFields where
  content := { postFields.content with deadlineAt := none }
  contacts := postFields.contacts
  unique_channels := postFields.unique_channels

def noticePublished : RecruitmentWorld :=
  postCall 0 (postDraft noticeFields) (.run postOwner 1 1 ⟨.publish, 1, 1⟩ 1 1)

def noticeRow : RecruitmentDraft :=
  { RecruitmentDb.newDraft postDigests 0 1 1 noticeFields with
    cycleId := some 1
    lastConfirmedAt := some 0
    nextRemindAt := some reminderPeriod
    publicRevisionId := some 1
    status := .opened
    version := 2 }

def noticeReminder (status : ReminderStatus) : ReminderDelivery :=
  ⟨1, 1, reminderPeriod, 1, status, false⟩

def noticeReminded : RecruitmentWorld :=
  ⟨(noticePublished.db.putReminder 7 (noticeReminder .pending)).putRow 1
      { noticeRow with
        nextRemindAt := some (nextReminderDue reminderPeriod reminderPeriod)
        version := 3
        updatedAt := reminderPeriod },
    reminderPeriod, noticePublished.cycles⟩

def noticeClaimed : RecruitmentWorld := postCall reminderPeriod noticeReminded (.claimReminder 7)

def noticeAccount (w : RecruitmentWorld) (status : UserStatus) : RecruitmentWorld :=
  { w with db := { w.db with users := w.db.users.put 1 ⟨.student, status⟩ } }

def noticeRestored : RecruitmentWorld :=
  noticeAccount (noticeAccount noticeClaimed .suspended) .active

def noticeSent : RecruitmentWorld := postCall reminderPeriod noticeRestored (.finalizeReminder 7)

theorem elsewhere_users (db : RecruitmentDb) (users : Table UserId Account) :
    RecruitmentElsewhere db { db with users := users } where
  revisions := rfl
  contacts := rfl
  receipts := rfl
  projects _ p hp := ⟨p, hp, rfl⟩
  recruitments id := by
    cases h : db.recruitments.get id with
    | none => exact ⟨false, rfl⟩
    | some row => exact ⟨row.takenDown, rfl⟩
  reminders id := by
    cases h : db.reminders.get id with
    | none => exact ⟨.pending, false, rfl⟩
    | some r => exact ⟨r.status, r.skipped, rfl⟩
  decided id r r' hr hr' hsend := by
    obtain rfl := Option.some.inj (hr.symm.trans hr')
    exact hsend

theorem reach_notice : (recruitmentSystem postDigests).Reach noticePublished :=
  .step (reach_draft noticeFields) (.call _ (by decide) ⟨rfl, rfl⟩)

theorem notice_reminded :
    noticePublished.db.remindIfDue reminderPeriod 1 7 = noticeReminded.db := by
  have hrecorded : noticePublished.db.recordReminder 7 (noticeReminder .pending) =
      noticePublished.db.putReminder 7 (noticeReminder .pending) :=
    recordReminder_new fun d r hr => (by cases hr)
  change (noticePublished.db.recordReminder 7 (noticeReminder .pending)).putRow 1 _ = _
  rw [hrecorded]
  rfl

theorem reach_reminded : (recruitmentSystem postDigests).Reach noticeReminded := by
  have hnow : noticePublished.now ≤ reminderPeriod := by decide
  have hfresh : (RecruitmentCall.remindIfDue 1 7).Fresh noticePublished := rfl
  have hstep : RecruitmentStep postDigests noticePublished (some (.remindIfDue 1 7))
      ⟨noticePublished.db.remindIfDue reminderPeriod 1 7, reminderPeriod,
        noticePublished.cycles⟩ := .call _ hnow hfresh
  rw [notice_reminded] at hstep
  exact .step reach_notice hstep

theorem reach_suspended :
    (recruitmentSystem postDigests).Reach (noticeAccount noticeClaimed .suspended) := by
  have hclaimed : (recruitmentSystem postDigests).Reach noticeClaimed :=
    .step reach_reminded (.call _ (le_refl _) trivial)
  exact .step hclaimed (.elsewhere (elsewhere_users _ _))

/-- The owner is suspended and restored before the reminder is sent, and it is sent. -/
theorem suspension_forgotten :
    ¬ ∀ (digests : RecruitmentDigests) (w w' : RecruitmentWorld)
      (l : List (RecruitmentWorld × Option RecruitmentCall × RecruitmentWorld)) (d : DeliveryId)
      (r r' : ReminderDelivery) (row : RecruitmentDraft),
      (recruitmentSystem digests).Reach w → w.db.reminders.get d = some r → ¬ r.RealSend →
      w.db.recruitments.get r.recruitmentId = some row → ¬ w.db.OwnerEffective row.projectId →
      (recruitmentSystem digests).Run w l w' → w'.db.reminders.get d = some r' →
      ¬ r'.RealSend := by
  intro h
  have hrestore : (recruitmentSystem postDigests).step (noticeAccount noticeClaimed .suspended)
      none noticeRestored := .elsewhere (elsewhere_users _ _)
  have hsend : (recruitmentSystem postDigests).step noticeRestored
      (some (.finalizeReminder 7)) noticeSent := .call _ (le_refl _) trivial
  have hineffective : ¬ (noticeAccount noticeClaimed .suspended).db.OwnerEffective 1 := by
    rintro ⟨p, u, q, hp, hu, _, hactive, _⟩
    obtain rfl : (⟨1, ⟨['t'], ['s'], ['d'], ['g'], ['m']⟩, 1⟩ : ProjectDraft) = p :=
      Option.some.inj hp
    obtain rfl : (⟨.student, .suspended⟩ : Account) = u := Option.some.inj hu
    cases hactive
  have hrun := System.Run.snoc (.snoc (.nil _) hrestore) hsend
  exact h postDigests _ _ _ 7 (noticeReminder .sending) (noticeReminder .sent) _ reach_suspended rfl
    (fun hsent => (by cases hsent.1)) rfl hineffective hrun rfl ⟨rfl, rfl⟩

/-- The reminder of the notice moves its schedule on by whole periods. -/
theorem notice_reminded_once : ∃ row',
    (noticePublished.db.remindIfDue reminderPeriod 1 7).recruitments.get 1 = some row' ∧
      ∃ k : ℕ, 1 ≤ k ∧ row'.nextRemindAt = some (reminderPeriod + k * reminderPeriod) := by
  obtain ⟨_, hremind, _⟩ := reminders_once_and_current postDigests reach_notice
  have hrow : (noticePublished.db.remindIfDue reminderPeriod 1 7).recruitments.get 1 = some
      { noticeRow with
        nextRemindAt := some (nextReminderDue reminderPeriod reminderPeriod)
        version := 3
        updatedAt := reminderPeriod } := by
    rw [notice_reminded]
    rfl
  obtain ⟨_, due, _, hdue, _, ⟨k, hk, hnext, _⟩, _⟩ :=
    hremind reminderPeriod 1 7 noticeRow _ rfl hrow (by decide)
  obtain rfl : reminderPeriod = due := Option.some.inj hdue
  exact ⟨_, hrow, k, hk, hnext⟩

end Notice

end CampusQuest.Innovation
