import CampusQuest.LifecycleErrors

/-!
Deadlines and the reward ladder. A submission pays a fraction of the base reward by how late
it is; the fraction is kept as the percentage that the claim persists, and the points are
the floor of base times fraction.
-/

namespace CampusQuest.Lifecycle

open Guards

def minutes (n : ℤ) : Duration := n * 60000000

inductive RewardFraction
  | full
  | early
  | mid
  | late
  deriving DecidableEq, Repr

def RewardFraction.tierPercent : RewardFraction → ℤ
  | .full => 100
  | .early => 80
  | .mid => 50
  | .late => 20

structure ClaimDeadlines where
  deadlineAt : Instant
  graceDeadlineAt : Instant
  deriving DecidableEq

/-- FIXED reads the task's shared instant, RELATIVE anchors on the claim. -/
def claimDeadline (taskId : TaskId) (task : Task) (claimedAt : Instant) : Answer Instant :=
  match task.deadlineMode with
  | .fixed => orRefuse (.misconfiguredTask taskId) task.fixedDeadlineAt
  | .relative => do
    let duration ← orRefuse (.misconfiguredTask taskId) task.durationMinutes
    ensure (0 < duration) (.misconfiguredTask taskId)
    return claimedAt + minutes duration

def computeClaimDeadlines (taskId : TaskId) (task : Task) (claimedAt : Instant) :
    Answer ClaimDeadlines := do
  let deadlineAt ← claimDeadline taskId task claimedAt
  ensure (0 < task.gracePeriodMinutes) (.misconfiguredTask taskId)
  return ⟨deadlineAt, deadlineAt + minutes task.gracePeriodMinutes⟩

/-- The tier of a submission instant: inclusive at the deadline and at its own start. -/
def rewardFraction (submittedAt deadlineAt graceDeadlineAt : Instant) : Answer RewardFraction :=
  if graceDeadlineAt ≤ submittedAt then .error (.windowClosed submittedAt graceDeadlineAt)
  else if submittedAt ≤ deadlineAt then .ok .full
  else if submittedAt < deadlineAt + hours 4 then .ok .early
  else if submittedAt < deadlineAt + hours 12 then .ok .mid
  else .ok .late

def rewardPoints (basePoints : ℤ) (fraction : RewardFraction) : ℤ :=
  basePoints * fraction.tierPercent / 100

theorem tierPercent_pos (f : RewardFraction) : 0 < f.tierPercent := by
  cases f <;> decide

theorem rewardPoints_nonneg {base : ℤ} (h : 0 < base) (f : RewardFraction) :
    0 ≤ rewardPoints base f := by
  have hpos := tierPercent_pos f
  exact Int.ediv_nonneg (Int.mul_nonneg (by omega) (by omega)) (by decide)

/-- A reward pays something exactly when a hundredth of base times tier is a whole point. -/
theorem rewardPoints_pos_iff (base : ℤ) (f : RewardFraction) :
    0 < rewardPoints base f ↔ 100 ≤ base * f.tierPercent := by
  unfold rewardPoints
  generalize base * f.tierPercent = n
  omega

/-- The ladder answers exactly before the grace deadline. -/
theorem rewardFraction_error {submittedAt deadlineAt graceDeadlineAt : Instant}
    {e : LifecycleError} (h : rewardFraction submittedAt deadlineAt graceDeadlineAt = .error e) :
    graceDeadlineAt ≤ submittedAt := by
  unfold rewardFraction at h
  split at h
  next hclosed => exact hclosed
  next =>
    split at h
    next => cases h
    next =>
      split at h
      next => cases h
      next =>
        split at h
        next => cases h
        next => cases h

end CampusQuest.Lifecycle
