import CampusQuest.Allocation
import CampusQuest.TaskService

/-!
The deadlines that a published task owes its claims. The publish gate, the claim gate, the
public flag and the deadline arithmetic are read again here over the datetimes of the
language, whose sums can leave their range. Inside the range they are the functions of the
task and claim services.
-/

namespace CampusQuest.ClaimWindow

open Guards Tasks
open Lifecycle (ClaimDeadlines LifecycleError DeadlineMode)

section Datetimes

def datetimeMin : Instant := -62135596800000000

def datetimeMax : Instant := 253402300799999999

def Representable (t : Instant) : Prop := datetimeMin ≤ t ∧ t ≤ datetimeMax

instance (t : Instant) : Decidable (Representable t) := inferInstanceAs (Decidable (_ ∧ _))

abbrev Moment := { t : Instant // Representable t }

inductive Raised (ε : Type)
  | refused (e : ε)
  | overflow
  deriving DecidableEq

variable {ε α : Type}

/-- `datetime + timedelta`. A duration that is too long for a `timedelta` fails here too. -/
def plus (t : Instant) (d : Duration) : Except (Raised ε) Instant :=
  if Representable (t + d) then .ok (t + d) else .error .overflow

def checked (x : Except ε α) : Except (Raised ε) α := x.mapError .refused

@[simp] theorem plus_ok {t : Instant} {d : Duration} {t' : Instant} :
    (plus t d : Except (Raised ε) Instant) = .ok t' ↔ Representable (t + d) ∧ t' = t + d := by
  unfold plus
  split
  next h => simp [h, eq_comm]
  next h => simp [h]

@[simp] theorem checked_ok {x : Except ε α} {a : α} : checked x = .ok a ↔ x = .ok a := by
  cases x with
  | ok a => simp [checked, Except.mapError]
  | error e => simp [checked, Except.mapError]

end Datetimes

section Gates

def publishCutoff (row : TaskRow) (deadline now : Instant) : Except (Raised TaskError) Unit := do
  let threshold ← plus now (minutes row.claimCutoffMinutes)
  checked (ensure (threshold ≤ deadline) (.cutoffReached row.claimCutoffMinutes))

def validateDeadline (row : TaskRow) (now : Instant) : Except (Raised TaskError) Unit :=
  match row.deadlineMode with
  | .fixed => do
    let deadline ← checked (orRefuse .missingFixedDeadline row.fixedDeadlineAt)
    checked (ensure (now < deadline) .pastDeadline)
    publishCutoff row deadline now
  | .relative =>
    match row.durationMinutes with
    | none => .error (.refused .invalidDuration)
    | some m => checked (ensure (0 < m) .invalidDuration)

def validatePublishable (svc : TaskService) (row : TaskRow) (now : Instant) :
    Except (Raised TaskError) Unit := do
  checked (ensure (0 < row.baseRewardPoints) .invalidReward)
  validateDeadline row now
  checked (validateFilePolicy row)
  let _ ← checked (svc.validateSizeCap row.maxFileSizeBytes)

def isClaimable (row : TaskRow) (now : Instant) : Except (Raised TaskError) Bool :=
  if row.status ≠ .published then .ok false
  else
    match row.deadlineMode with
    | .relative => .ok true
    | .fixed =>
      match row.fixedDeadlineAt with
      | none => .ok false
      | some deadline => do
        let threshold ← plus now (minutes row.claimCutoffMinutes)
        return decide (threshold ≤ deadline)

def requireWithinCutoff (row : TaskRow) (now : Instant) : Except (Raised LifecycleError) Unit := do
  let deadline ← checked (orRefuse (.taskNotClaimable row.status .invalidFixedDeadline)
    row.fixedDeadlineAt)
  let threshold ← plus now (minutes row.claimCutoffMinutes)
  checked (ensure (threshold ≤ deadline) (.claimCutoffReached deadline row.claimCutoffMinutes))

def requireClaimableTask (row : TaskRow) (now : Instant) : Except (Raised LifecycleError) Unit := do
  checked (ensure (row.status = .published) (.taskNotClaimable row.status .taskNotPublished))
  match row.deadlineMode with
  | .fixed => requireWithinCutoff row now
  | .relative => return ()

def claimDeadline (id : TaskId) (row : TaskRow) (claimedAt : Instant) :
    Except (Raised LifecycleError) Instant :=
  match row.deadlineMode with
  | .fixed => checked (orRefuse (.misconfiguredTask id) row.fixedDeadlineAt)
  | .relative => do
    let duration ← checked (orRefuse (.misconfiguredTask id) row.durationMinutes)
    checked (ensure (0 < duration) (.misconfiguredTask id))
    plus claimedAt (minutes duration)

def computeClaimDeadlines (id : TaskId) (row : TaskRow) (claimedAt : Instant) :
    Except (Raised LifecycleError) ClaimDeadlines := do
  let deadlineAt ← claimDeadline id row claimedAt
  checked (ensure (0 < row.gracePeriodMinutes) (.misconfiguredTask id))
  let graceDeadlineAt ← plus deadlineAt (minutes row.gracePeriodMinutes)
  return ⟨deadlineAt, graceDeadlineAt⟩

end Gates

section Accepted

variable {svc : TaskService} {row : TaskRow} {now deadline : Instant} {id : TaskId}

theorem publishCutoff_ok : publishCutoff row deadline now = .ok () ↔
    Representable (now + minutes row.claimCutoffMinutes) ∧
      now + minutes row.claimCutoffMinutes ≤ deadline := by
  unfold publishCutoff
  rw [bind_ok]
  constructor
  · rintro ⟨threshold, hplus, hcutoff⟩
    obtain ⟨hfits, rfl⟩ := plus_ok.mp hplus
    exact ⟨hfits, ensure_ok.mp (checked_ok.mp hcutoff)⟩
  · rintro ⟨hfits, hcutoff⟩
    exact ⟨_, plus_ok.mpr ⟨hfits, rfl⟩, checked_ok.mpr (ensure_ok.mpr hcutoff)⟩

theorem requireWithinCutoff_ok : requireWithinCutoff row now = .ok () ↔
    ∃ deadline, row.fixedDeadlineAt = some deadline ∧
      Representable (now + minutes row.claimCutoffMinutes) ∧
      now + minutes row.claimCutoffMinutes ≤ deadline := by
  unfold requireWithinCutoff
  rw [bind_ok]
  constructor
  · rintro ⟨deadline, hdeadline, hrest⟩
    obtain ⟨threshold, hplus, hcutoff⟩ := bind_ok.mp hrest
    obtain ⟨hfits, rfl⟩ := plus_ok.mp hplus
    exact ⟨deadline, orRefuse_ok.mp (checked_ok.mp hdeadline), hfits,
      ensure_ok.mp (checked_ok.mp hcutoff)⟩
  · rintro ⟨deadline, hdeadline, hfits, hcutoff⟩
    exact ⟨deadline, checked_ok.mpr (orRefuse_ok.mpr hdeadline), bind_ok.mpr
      ⟨_, plus_ok.mpr ⟨hfits, rfl⟩, checked_ok.mpr (ensure_ok.mpr hcutoff)⟩⟩

/-- The publish gate and the claim gate read one cutoff. -/
theorem cutoffs_agree (hdeadline : row.fixedDeadlineAt = some deadline) :
    publishCutoff row deadline now = .ok () ↔ requireWithinCutoff row now = .ok () := by
  rw [publishCutoff_ok, requireWithinCutoff_ok]
  simp [hdeadline]

theorem requireClaimableTask_ok : requireClaimableTask row now = .ok () ↔
    row.status = .published ∧
      (row.deadlineMode = .fixed → requireWithinCutoff row now = .ok ()) := by
  unfold requireClaimableTask
  rw [bind_ok]
  simp only [checked_ok, ensure_ok]
  cases row.deadlineMode with
  | fixed => simp
  | relative => simp [pure, Except.pure]

/-- The public flag is the claim gate, at every instant. -/
theorem isClaimable_iff :
    isClaimable row now = .ok true ↔ requireClaimableTask row now = .ok () := by
  rw [requireClaimableTask_ok]
  unfold isClaimable
  by_cases hstatus : row.status = .published
  · rw [if_neg (not_not_intro hstatus)]
    simp only [hstatus, true_and]
    cases row.deadlineMode with
    | relative => simp
    | fixed =>
      rw [requireWithinCutoff_ok]
      cases row.fixedDeadlineAt with
      | none => simp
      | some deadline =>
        simp only [true_implies, Option.some.injEq, exists_eq_left']
        rw [bind_ok]
        simp [pure, Except.pure, and_assoc]
  · rw [if_pos hstatus]
    simp [hstatus]

theorem claimDeadline_ok {deadlineAt : Instant} :
    claimDeadline id row now = .ok deadlineAt ↔
      (row.deadlineMode = .fixed ∧ row.fixedDeadlineAt = some deadlineAt) ∨
        row.deadlineMode = .relative ∧ ∃ m, row.durationMinutes = some m ∧ 0 < m ∧
          Representable (now + minutes m) ∧ deadlineAt = now + minutes m := by
  unfold claimDeadline
  cases row.deadlineMode with
  | fixed => simp
  | relative =>
    rw [bind_ok]
    simp only [checked_ok, orRefuse_ok, bind_ok, ensure_ok, plus_ok]
    simp

theorem computeClaimDeadlines_ok {d : ClaimDeadlines} :
    computeClaimDeadlines id row now = .ok d ↔
      claimDeadline id row now = .ok d.deadlineAt ∧ 0 < row.gracePeriodMinutes ∧
        Representable (d.deadlineAt + minutes row.gracePeriodMinutes) ∧
        d.graceDeadlineAt = d.deadlineAt + minutes row.gracePeriodMinutes := by
  unfold computeClaimDeadlines
  obtain ⟨deadlineAt, graceDeadlineAt⟩ := d
  simp only [bind_ok, checked_ok, ensure_ok, plus_ok, pure, Except.pure, Except.ok.injEq,
    ClaimDeadlines.mk.injEq]
  constructor
  · rintro ⟨_, hdeadline, _, hgrace, _, ⟨hfits, rfl⟩, rfl, rfl⟩
    exact ⟨hdeadline, hgrace, hfits, rfl⟩
  · rintro ⟨hdeadline, hgrace, hfits, rfl⟩
    exact ⟨deadlineAt, hdeadline, (), hgrace, _, ⟨hfits, rfl⟩, rfl, rfl⟩

/-- What the deadline part of the publish gate has checked. -/
theorem validateDeadline_ok (h : validateDeadline row now = .ok ()) :
    (row.deadlineMode = .fixed → ∃ deadline, row.fixedDeadlineAt = some deadline ∧
      now < deadline ∧ publishCutoff row deadline now = .ok ()) ∧
    (row.deadlineMode = .relative → ∃ m, row.durationMinutes = some m ∧ 0 < m) := by
  unfold validateDeadline at h
  cases hmode : row.deadlineMode with
  | fixed =>
    simp only [hmode] at h
    obtain ⟨deadline, hdeadline, hrest⟩ := bind_ok.mp h
    obtain ⟨_, hpast, hcutoff⟩ := bind_ok.mp hrest
    refine ⟨fun _ => ⟨deadline, orRefuse_ok.mp (checked_ok.mp hdeadline),
      ensure_ok.mp (checked_ok.mp hpast), hcutoff⟩, fun hrelative => ?_⟩
    cases hrelative
  | relative =>
    simp only [hmode] at h
    refine ⟨fun hfixed => (by cases hfixed), fun _ => ?_⟩
    cases hduration : row.durationMinutes with
    | none =>
      rw [hduration] at h
      cases h
    | some m =>
      rw [hduration] at h
      exact ⟨m, rfl, ensure_ok.mp (checked_ok.mp h)⟩

theorem validatePublishable_ok (h : validatePublishable svc row now = .ok ()) :
    validateDeadline row now = .ok () := by
  unfold validatePublishable at h
  obtain ⟨_, _, hrest⟩ := bind_ok.mp h
  obtain ⟨_, hdeadline, _⟩ := bind_ok.mp hrest
  exact hdeadline

end Accepted

section Unbounded

variable {svc : TaskService} {row : TaskRow} {now : Instant} {id : TaskId}

structure ReadsAs (row : TaskRow) (task : Lifecycle.Task) : Prop where
  status : task.status = row.status
  deadlineMode : task.deadlineMode = row.deadlineMode
  fixedDeadlineAt : task.fixedDeadlineAt = row.fixedDeadlineAt
  durationMinutes : task.durationMinutes = row.durationMinutes
  gracePeriodMinutes : task.gracePeriodMinutes = row.gracePeriodMinutes
  claimCutoffMinutes : task.claimCutoffMinutes = row.claimCutoffMinutes

/-- The arithmetic adds nothing to the publish gate but its own range. -/
theorem validateDeadline_iff : validateDeadline row now = .ok () ↔
    Tasks.validateDeadline row now = .ok () ∧
      (row.deadlineMode = .fixed → Representable (now + minutes row.claimCutoffMinutes)) := by
  unfold validateDeadline Tasks.validateDeadline
  cases row.deadlineMode with
  | fixed =>
    simp only [bind_ok, checked_ok, orRefuse_ok, ensure_ok, publishCutoff_ok, true_implies]
    constructor
    · rintro ⟨deadline, hdeadline, _, hpast, hfits, hcutoff⟩
      exact ⟨⟨deadline, hdeadline, (), hpast, hcutoff⟩, hfits⟩
    · rintro ⟨⟨deadline, hdeadline, _, hpast, hcutoff⟩, hfits⟩
      exact ⟨deadline, hdeadline, (), hpast, hfits, hcutoff⟩
  | relative =>
    cases row.durationMinutes with
    | none => simp
    | some m => simp

theorem validatePublishable_iff : validatePublishable svc row now = .ok () ↔
    svc.validatePublishable row now = .ok () ∧
      (row.deadlineMode = .fixed → Representable (now + minutes row.claimCutoffMinutes)) := by
  unfold validatePublishable TaskService.validatePublishable
  rw [bind_ok, ensure_bind_ok]
  simp only [checked_ok, ensure_ok]
  constructor
  · rintro ⟨_, hreward, hrest⟩
    obtain ⟨_, hdeadline, hrest⟩ := bind_ok.mp hrest
    obtain ⟨_, hpolicy, hrest⟩ := bind_ok.mp hrest
    obtain ⟨cap, hcap, _⟩ := bind_ok.mp hrest
    obtain ⟨hdeadline, hfits⟩ := validateDeadline_iff.mp hdeadline
    exact ⟨⟨hreward, bind_ok.mpr ⟨_, hdeadline, bind_ok.mpr ⟨_, checked_ok.mp hpolicy,
      bind_ok.mpr ⟨cap, checked_ok.mp hcap, rfl⟩⟩⟩⟩, hfits⟩
  · rintro ⟨⟨hreward, hrest⟩, hfits⟩
    obtain ⟨_, hdeadline, hrest⟩ := bind_ok.mp hrest
    obtain ⟨_, hpolicy, hrest⟩ := bind_ok.mp hrest
    obtain ⟨cap, hcap, _⟩ := bind_ok.mp hrest
    exact ⟨(), hreward, bind_ok.mpr ⟨_, validateDeadline_iff.mpr ⟨hdeadline, hfits⟩,
      bind_ok.mpr ⟨_, checked_ok.mpr hpolicy, bind_ok.mpr ⟨cap, checked_ok.mpr hcap, rfl⟩⟩⟩⟩

theorem requireClaimableTask_iff {task : Lifecycle.Task} (htask : ReadsAs row task) :
    requireClaimableTask row now = .ok () ↔
      Lifecycle.requireClaimableTask task now = .ok () ∧
        (row.deadlineMode = .fixed → Representable (now + minutes row.claimCutoffMinutes)) := by
  rw [requireClaimableTask_ok]
  unfold Lifecycle.requireClaimableTask Lifecycle.requireWithinCutoff
  rw [ensure_bind_ok, htask.status, htask.deadlineMode, htask.fixedDeadlineAt,
    htask.claimCutoffMinutes]
  cases row.deadlineMode with
  | fixed =>
    rw [requireWithinCutoff_ok]
    simp only [bind_ok, orRefuse_ok, ensure_ok, true_implies]
    constructor
    · rintro ⟨hstatus, deadline, hdeadline, hfits, hcutoff⟩
      exact ⟨⟨hstatus, deadline, hdeadline, hcutoff⟩, hfits⟩
    · rintro ⟨⟨hstatus, deadline, hdeadline, hcutoff⟩, hfits⟩
      exact ⟨hstatus, deadline, hdeadline, hfits, hcutoff⟩
  | relative => simp [pure, Except.pure]

theorem computeClaimDeadlines_of_ok {task : Lifecycle.Task} (htask : ReadsAs row task)
    {d : ClaimDeadlines} (h : computeClaimDeadlines id row now = .ok d) :
    Lifecycle.computeClaimDeadlines id task now = .ok d := by
  obtain ⟨hdeadline, hgrace, _, hend⟩ := computeClaimDeadlines_ok.mp h
  have hunbounded : Lifecycle.claimDeadline id task now = .ok d.deadlineAt := by
    unfold Lifecycle.claimDeadline
    rw [htask.deadlineMode, htask.fixedDeadlineAt, htask.durationMinutes]
    rcases claimDeadline_ok.mp hdeadline with ⟨hmode, hfixed⟩ | ⟨hmode, m, hm, hpos, _, hsum⟩
    · rw [hmode]
      exact orRefuse_ok.mpr hfixed
    · rw [hmode, hm, hsum]
      dsimp only
      rw [orRefuse_some_bind, ensure_true_bind hpos]
      rfl
  unfold Lifecycle.computeClaimDeadlines
  rw [htask.gracePeriodMinutes]
  refine bind_ok.mpr ⟨_, hunbounded, ensure_bind_ok.mpr ⟨hgrace, ?_⟩⟩
  obtain ⟨deadlineAt, graceDeadlineAt⟩ := d
  dsimp only at hend ⊢
  rw [hend]
  rfl

end Unbounded

section Promise

variable {svc : TaskService} {row : TaskRow} {now : Instant} {id : TaskId}

/-- What a claim at an instant may rely on: one cutoff everywhere, a flag that is the claim
gate, and deadlines in order and in range for a claim that the gate admits. -/
structure Promises (id : TaskId) (row : TaskRow) (now : Instant) : Prop where
  cutoff : ∀ deadline, row.fixedDeadlineAt = some deadline →
    (publishCutoff row deadline now = .ok () ↔ requireWithinCutoff row now = .ok ())
  claimable : isClaimable row now = .ok true ↔ requireClaimableTask row now = .ok ()
  deadlines : requireClaimableTask row now = .ok () →
    ∃ d, computeClaimDeadlines id row now = .ok d ∧ now ≤ d.deadlineAt ∧
      d.deadlineAt < d.graceDeadlineAt ∧ Representable d.deadlineAt ∧
      Representable d.graceDeadlineAt

/-- The grace period after the deadline of a claim at this instant ends in the range. -/
def WindowFits (row : TaskRow) (now : Instant) : Prop :=
  match row.deadlineMode with
  | .fixed => ∀ deadline ∈ row.fixedDeadlineAt,
    deadline + minutes row.gracePeriodMinutes ≤ datetimeMax
  | .relative => ∀ m ∈ row.durationMinutes,
    now + minutes m + minutes row.gracePeriodMinutes ≤ datetimeMax

theorem minutes_nonneg {n : ℤ} (h : 0 ≤ n) : 0 ≤ minutes n :=
  Int.mul_nonneg h (by decide)

theorem minutes_pos {n : ℤ} (h : 0 < n) : 0 < minutes n :=
  Int.mul_pos h (by decide)

/-- The deadline of an admitted claim is not before the claim. -/
theorem le_deadline (hcutoff : 0 ≤ row.claimCutoffMinutes)
    (hgate : requireClaimableTask row now = .ok ()) {deadlineAt : Instant}
    (h : claimDeadline id row now = .ok deadlineAt) : now ≤ deadlineAt := by
  rcases claimDeadline_ok.mp h with ⟨hmode, hfixed⟩ | ⟨_, m, _, hpos, _, rfl⟩
  · obtain ⟨deadline, hdeadline, _, hle⟩ :=
      requireWithinCutoff_ok.mp ((requireClaimableTask_ok.mp hgate).2 hmode)
    rw [hfixed] at hdeadline
    obtain rfl := Option.some.inj hdeadline
    have hwidth : (0 : ℤ) ≤ minutes row.claimCutoffMinutes := minutes_nonneg hcutoff
    exact le_trans (le_add_of_nonneg_right hwidth) hle
  · exact le_add_of_nonneg_right (le_of_lt (minutes_pos hpos))

/-- For a task that the publish gate has accepted, the deadlines of a claim can be computed
exactly when its window ends in the range. -/
theorem computes_iff {published : Instant} (hchecks : row.Checks) (hnow : Representable now)
    (haccepted : validateDeadline row published = .ok ())
    (hgate : requireClaimableTask row now = .ok ()) :
    (∃ d, computeClaimDeadlines id row now = .ok d) ↔ WindowFits row now := by
  obtain ⟨hfixed, hrelative⟩ := validateDeadline_ok haccepted
  obtain ⟨_, _, hgrace, hcutoff, _⟩ := hchecks
  have hpos : 0 < row.gracePeriodMinutes := by
    rw [hgrace]
    decide
  have hwidth : (0 : ℤ) < minutes row.gracePeriodMinutes := minutes_pos hpos
  unfold WindowFits
  cases hmode : row.deadlineMode with
  | fixed =>
    obtain ⟨deadline, hdeadline, _, _⟩ := hfixed hmode
    have hclaim : claimDeadline id row now = .ok deadline :=
      claimDeadline_ok.mpr (Or.inl ⟨hmode, hdeadline⟩)
    have hle : now ≤ deadline := le_deadline hcutoff hgate hclaim
    simp only [hdeadline, Option.mem_some_iff, forall_eq']
    constructor
    · rintro ⟨d, hd⟩
      obtain ⟨hclaim', _, hfits, _⟩ := computeClaimDeadlines_ok.mp hd
      rw [hclaim] at hclaim'
      rw [Except.ok.inj hclaim']
      exact hfits.2
    · intro hfits
      have hstart : datetimeMin ≤ deadline + minutes row.gracePeriodMinutes :=
        le_trans hnow.1 (le_trans hle (le_add_of_nonneg_right (le_of_lt hwidth)))
      exact ⟨⟨deadline, deadline + minutes row.gracePeriodMinutes⟩,
        computeClaimDeadlines_ok.mpr ⟨hclaim, hpos, ⟨hstart, hfits⟩, rfl⟩⟩
  | relative =>
    obtain ⟨m, hm, hduration⟩ := hrelative hmode
    have hlength : (0 : ℤ) < minutes m := minutes_pos hduration
    simp only [hm, Option.mem_some_iff, forall_eq']
    constructor
    · rintro ⟨d, hd⟩
      obtain ⟨hclaim, _, hfits, _⟩ := computeClaimDeadlines_ok.mp hd
      rcases claimDeadline_ok.mp hclaim with ⟨hother, _⟩ | ⟨_, m', hm', _, _, hsum⟩
      · rw [hmode] at hother
        cases hother
      · rw [hm] at hm'
        obtain rfl := Option.some.inj hm'
        rw [hsum] at hfits
        exact hfits.2
    · intro hfits
      have hmiddle : now + minutes m ≤ datetimeMax :=
        le_trans (le_add_of_nonneg_right (le_of_lt hwidth)) hfits
      have hstart : datetimeMin ≤ now + minutes m :=
        le_trans hnow.1 (le_add_of_nonneg_right (le_of_lt hlength))
      have hend : datetimeMin ≤ now + minutes m + minutes row.gracePeriodMinutes :=
        le_trans hstart (le_add_of_nonneg_right (le_of_lt hwidth))
      have hclaim : claimDeadline id row now = .ok (now + minutes m) :=
        claimDeadline_ok.mpr (Or.inr ⟨hmode, m, hm, hduration, ⟨hstart, hmiddle⟩, rfl⟩)
      exact ⟨⟨now + minutes m, now + minutes m + minutes row.gracePeriodMinutes⟩,
        computeClaimDeadlines_ok.mpr ⟨hclaim, hpos, ⟨hend, hfits⟩, rfl⟩⟩

/-- Deadlines that can be computed for an admitted claim are in order and in range. -/
theorem deadlines_of_ok (hchecks : row.Checks) (hnow : Representable now)
    (hgate : requireClaimableTask row now = .ok ()) {d : ClaimDeadlines}
    (h : computeClaimDeadlines id row now = .ok d) :
    now ≤ d.deadlineAt ∧ d.deadlineAt < d.graceDeadlineAt ∧ Representable d.deadlineAt ∧
      Representable d.graceDeadlineAt := by
  obtain ⟨_, _, _, hcutoff, _⟩ := hchecks
  obtain ⟨hclaim, hpos, hfits, hend⟩ := computeClaimDeadlines_ok.mp h
  have hle : now ≤ d.deadlineAt := le_deadline hcutoff hgate hclaim
  have hlt : d.deadlineAt < d.graceDeadlineAt := by
    rw [hend]
    exact lt_add_of_pos_right _ (minutes_pos hpos)
  rw [← hend] at hfits
  exact ⟨hle, hlt, ⟨le_trans hnow.1 hle, le_trans (le_of_lt hlt) hfits.2⟩, hfits⟩

end Promise

/-- A task that the publish gate accepts keeps its promise to a claim exactly when, if the
gate admits the claim, its window ends in the range. -/
theorem promises_iff (svc : TaskService) (id : TaskId) (task : StoredTask) (published : Instant)
    (haccepted : validatePublishable svc task.1 published = .ok ()) (now : Moment) :
    Promises id task.1 now.1 ↔
      (requireClaimableTask task.1 now.1 = .ok () → WindowFits task.1 now.1) := by
  have hdeadline := validatePublishable_ok haccepted
  constructor
  · intro hpromises hgate
    obtain ⟨d, hd, _⟩ := hpromises.deadlines hgate
    exact (computes_iff task.2 now.2 hdeadline hgate).mp ⟨d, hd⟩
  · intro hfits
    refine ⟨fun deadline h => cutoffs_agree h, isClaimable_iff, fun hgate => ?_⟩
    obtain ⟨d, hd⟩ : ∃ d, computeClaimDeadlines id task.1 now.1 = .ok d :=
      (computes_iff task.2 now.2 hdeadline hgate).mpr (hfits hgate)
    exact ⟨d, hd, deadlines_of_ok task.2 now.2 hgate hd⟩

section Example

def fixedRow (deadline : Instant) : TaskRow where
  ownerTeacherId := 9
  title := "t".toList
  description := "d".toList
  taskType := .dataCrawl
  rarity := .normal
  baseRewardPoints := 10
  status := .published
  deadlineMode := .fixed
  fixedDeadlineAt := some deadline
  durationMinutes := none
  gracePeriodMinutes := defaultGracePeriodMinutes
  claimCutoffMinutes := 240
  submissionSchema := none
  submissionSchemaVersion := none
  allowedFileTypes := ["CSV".toList]
  maxFileSizeBytes := 100
  notify24h := true
  notify4h := true
  notificationChannels := []
  publishedAt := some 0
  closedAt := none

theorem fixedRow_checks (deadline : Instant) : (fixedRow deadline).Checks := by
  have hchecks : (fixedRow 0).Checks := by decide
  exact hchecks

def fixedTask (deadline : Instant) : StoredTask := ⟨fixedRow deadline, fixedRow_checks deadline⟩

def hundredBytes : TaskService := ⟨100, id, fun _ => true⟩

def epoch : Moment := ⟨0, by decide⟩

theorem promises_of_week :
    requireClaimableTask (fixedTask (hours 168)).1 0 = .ok () ∧
      (Promises 1 (fixedTask (hours 168)).1 0 ↔
        (requireClaimableTask (fixedTask (hours 168)).1 0 = .ok () →
          WindowFits (fixedTask (hours 168)).1 0)) :=
  ⟨by decide, promises_iff hundredBytes 1 (fixedTask (hours 168)) 0 (by decide) epoch⟩

/-- A deadline at noon of the last day of the year 9999 is accepted, and a claim of that task
passes the gate and has no deadlines. -/
theorem last_day_unclaimable : ¬ ∀ svc id (task : StoredTask) published,
    validatePublishable svc task.1 published = .ok () → ∀ now : Moment,
      Promises id task.1 now.1 := by
  intro h
  have hpromises := h hundredBytes 1 (fixedTask (datetimeMax - hours 12)) 0 (by decide) epoch
  obtain ⟨d, hd, _⟩ := hpromises.deadlines (by decide)
  have hfailed : computeClaimDeadlines 1 (fixedTask (datetimeMax - hours 12)).1 0 =
      .error .overflow := by
    rfl
  change computeClaimDeadlines 1 (fixedTask (datetimeMax - hours 12)).1 0 = .ok d at hd
  rw [hfailed] at hd
  cases hd

end Example

end CampusQuest.ClaimWindow
