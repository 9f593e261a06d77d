import CampusQuest.Deadlines

/-!
Claiming an assignment, and giving it back by abandoning the claim or letting it expire.
Every function locks the rows it decides on before it reads them, so each runs as one step;
the lemma after a function says what it comes to when it commits.
-/

namespace CampusQuest.Lifecycle

open Tables Guards

/-- The account gate on the locked user row, role before status. Claims and uploads refuse
another role with errors of their own. -/
def requireActiveStudent (notStudent : UserId → Role → LifecycleError) (db : Db) (user : UserId) :
    Answer Unit := do
  let account ← orRefuse (.userNotFound user) (db.users.get user)
  ensure (account.role = .student) (notStudent user account.role)
  ensure (account.status = .active) (.accountNotActive user)

def maxActiveClaims : ℕ := 3

/-- Claiming stops when less than the cutoff remains; exactly the cutoff is still enough. -/
def requireWithinCutoff (task : Task) (now : Instant) : Answer Unit := do
  let deadline ← orRefuse (.taskNotClaimable task.status .invalidFixedDeadline)
    task.fixedDeadlineAt
  ensure (now + minutes task.claimCutoffMinutes ≤ deadline)
    (.claimCutoffReached deadline task.claimCutoffMinutes)

def requireClaimableTask (task : Task) (now : Instant) : Answer Unit := do
  ensure (task.status = .published) (.taskNotClaimable task.status .taskNotPublished)
  match task.deadlineMode with
  | .fixed => requireWithinCutoff task now
  | .relative => return ()

namespace Db

def AssignmentTaken (db : Db) (a : AssignmentId) : Prop :=
  db.claims.Any fun _ c => c.assignmentId = a ∧ c.status.active = true

def HasActiveClaim (db : Db) (user : UserId) (task : TaskId) : Prop :=
  db.claims.Any fun _ c => c.userId = user ∧ c.taskId = task ∧ c.status.active = true

def GaveBack (db : Db) (user : UserId) (a : AssignmentId) : Prop :=
  db.claims.Any fun _ c =>
    c.userId = user ∧ c.assignmentId = a ∧ c.status.reassignExcluded = true

instance (db : Db) (a : AssignmentId) : Decidable (db.AssignmentTaken a) :=
  inferInstanceAs (Decidable (Table.Any _ _))

instance (db : Db) (user : UserId) (task : TaskId) : Decidable (db.HasActiveClaim user task) :=
  inferInstanceAs (Decidable (Table.Any _ _))

instance (db : Db) (user : UserId) (a : AssignmentId) : Decidable (db.GaveBack user a) :=
  inferInstanceAs (Decidable (Table.Any _ _))

def quotaUsed (db : Db) (user : UserId) : ℕ :=
  db.claims.count fun _ c =>
    c.userId = user ∧ c.status.active = true ∧ c.status.quotaOccupying = true

def candidate (db : Db) (user : UserId) (task : TaskId) (a : AssignmentId) : Option Assignment :=
  (db.assignments.get a).filter fun row =>
    row.taskId = task ∧ row.availabilityStatus = .available ∧ ¬ db.GaveBack user a

def setAvailability (db : Db) (a : AssignmentId) (row : Assignment)
    (status : AssignmentAvailability) : Db :=
  { db with assignments := db.assignments.put a { row with availabilityStatus := status } }

/-- Only OCCUPIED flips; COMPLETED and RETIRED are sticky. -/
def leaveOccupied (db : Db) (a : AssignmentId) (status : AssignmentAvailability) : Db :=
  match db.assignments.get a with
  | some row =>
    if row.availabilityStatus = .occupied then db.setAvailability a row status else db
  | none => db

def putClaim (db : Db) (id : ClaimId) (claim : AssignmentClaim) : Db :=
  { db with claims := db.claims.put id claim }

end Db

def newClaim (a : AssignmentId) (taskId : TaskId) (task : Task) (user : UserId) (now : Instant)
    (deadlines : ClaimDeadlines) : AssignmentClaim where
  assignmentId := a
  taskId := taskId
  userId := user
  status := .claimed
  claimedAt := now
  deadlineAt := deadlines.deadlineAt
  graceDeadlineAt := deadlines.graceDeadlineAt
  baseRewardPointsSnapshot := task.baseRewardPoints
  submissionSchemaVersion := task.submissionSchemaVersion
  rewardLockStatus := .none
  rewardTierLocked := none
  rewardLockedAt := none
  lockedRewardPoints := none
  latestSubmissionId := none
  revisionDeadlineAt := none
  terminalAt := none
  base_reward_points_snapshot := task.base_reward_points
  locked_reward_points := no_points_locked

/-- `choice` is the row that the random query with SKIP LOCKED answers with, if any: it may
miss candidates that another transaction has locked. `id` is the server's new id. -/
def claimRandomAssignment (db : Db) (now : Instant) (user : UserId) (taskId : TaskId)
    (id : ClaimId) (choice : Option AssignmentId) : Answer (AssignmentClaim × Db) := do
  requireActiveStudent .claimerNotStudent db user
  let task ← orRefuse (.taskNotFound taskId) (db.tasks.get taskId)
  requireClaimableTask task now
  ensure (db.quotaUsed user < maxActiveClaims) (.assignmentLimitReached maxActiveClaims)
  ensure (¬ db.HasActiveClaim user taskId) (.activeClaimExists taskId)
  let a ← orRefuse (.noAssignmentAvailable taskId) choice
  let row ← orRefuse (.noAssignmentAvailable taskId) (db.candidate user taskId a)
  let deadlines ← computeClaimDeadlines taskId task now
  -- The index over active assignments; the one over users and tasks was checked above.
  ensure (¬ db.AssignmentTaken a) (.noAssignmentAvailable taskId)
  ensure (db.claims.get id = none) .integrityError
  let claim := newClaim a taskId task user now deadlines
  return (claim, (db.setAvailability a row .occupied).putClaim id claim)

def effectiveExpiryDeadline (claim : AssignmentClaim) : Instant :=
  match claim.revisionDeadlineAt with
  | some revision => max claim.graceDeadlineAt revision
  | none => claim.graceDeadlineAt

/-- `ValidatedSubmissionInspector`: the latest submission is VALIDATED, awaits its review
and came before the effective deadline. -/
def hasValidSubmission (db : Db) (claim : AssignmentClaim) : Bool :=
  match claim.latestSubmissionId.bind db.submissions.get with
  | none => false
  | some s =>
    s.validationStatus = .validated &&
      (s.reviewStatus = .pendingReview || s.reviewStatus = .underReview) &&
      s.submittedAt < effectiveExpiryDeadline claim

inductive ExpiryOutcome
  | expired
  | notDue
  | protectedClaim
  | validSubmission
  | alreadyTerminal
  | missing
  deriving DecidableEq, Repr

structure ExpireResult where
  claimId : ClaimId
  outcome : ExpiryOutcome
  status : Option ClaimStatus
  assignmentId : Option AssignmentId
  taskId : Option TaskId
  userId : Option UserId
  terminalAt : Option Instant

def expireResult (id : ClaimId) (claim : AssignmentClaim) (outcome : ExpiryOutcome) :
    ExpireResult where
  claimId := id
  outcome := outcome
  status := some claim.status
  assignmentId := some claim.assignmentId
  taskId := some claim.taskId
  userId := some claim.userId
  terminalAt := claim.terminalAt

def AssignmentClaim.terminate (claim : AssignmentClaim) (status : ClaimStatus) (now : Instant) :
    AssignmentClaim :=
  { claim with status := status, terminalAt := some now }

/-- `now` is the caller's; every outcome but EXPIRED writes nothing. -/
def expireClaimIfDue (db : Db) (id : ClaimId) (now : Instant) : ExpireResult × Db :=
  match db.claims.get id with
  | none => (⟨id, .missing, none, none, none, none, none⟩, db)
  | some claim =>
    if claim.status.terminal = true then (expireResult id claim .alreadyTerminal, db)
    else if claim.status.expiryActionable = false then (expireResult id claim .protectedClaim, db)
    else if now < effectiveExpiryDeadline claim then (expireResult id claim .notDue, db)
    else if hasValidSubmission db claim = true then (expireResult id claim .validSubmission, db)
    else
      let expired := claim.terminate .expired now
      (expireResult id expired .expired,
        (db.leaveOccupied claim.assignmentId .available).putClaim id expired)

namespace Db

def abandonsBetween (db : Db) (user : UserId) (start stop : Instant) : ℕ :=
  db.claims.count fun _ c => c.userId = user ∧ c.status = .abandoned ∧
    (c.terminalAt.any fun at' => start ≤ at' ∧ at' < stop) = true

end Db

/-- `day` is the business day that contains `now` and `limit` the daily cap in force. -/
def abandonClaim (db : Db) (now : Instant) (day : Instant × Instant) (limit : ℕ)
    (user : UserId) (id : ClaimId) : Answer (AssignmentClaim × Db) := do
  requireActiveStudent .claimerNotStudent db user
  let claim ← orRefuse (.claimNotFound id) (db.claims.get id)
  ensure (claim.userId = user) (.claimNotOwned id user)
  if claim.status = .abandoned then return (claim, db)
  else do
    ensure (claim.status.abandonable = true) (.claimNotAbandonable claim.status)
    ensure (db.abandonsBetween user day.1 day.2 < limit)
      (.abandonLimitReached limit day.1 day.2)
    let abandoned := claim.terminate .abandoned now
    return (abandoned, (db.leaveOccupied claim.assignmentId .available).putClaim id abandoned)

section Outcomes

variable {db db' : Db} {now : Instant}

theorem candidate_eq_some {user : UserId} {task : TaskId} {a : AssignmentId} {row : Assignment} :
    db.candidate user task a = some row ↔ db.assignments.get a = some row ∧
      row.taskId = task ∧ row.availabilityStatus = .available ∧ ¬ db.GaveBack user a := by
  unfold Db.candidate
  rw [Option.filter_eq_some_iff]
  simp

/-- A committed claim of an existing task takes an available assignment that no active claim
points at, for a user with no active claim of the task who never gave the assignment back. -/
theorem claimRandomAssignment_ok {user : UserId} {taskId : TaskId} {id : ClaimId}
    {choice : Option AssignmentId} {claim : AssignmentClaim}
    (h : claimRandomAssignment db now user taskId id choice = .ok (claim, db')) :
    ∃ a row task deadlines, db.tasks.get taskId = some task ∧
      db.assignments.get a = some row ∧ row.availabilityStatus = .available ∧
      ¬ db.GaveBack user a ∧ ¬ db.AssignmentTaken a ∧ ¬ db.HasActiveClaim user taskId ∧
      db.claims.get id = none ∧ claim = newClaim a taskId task user now deadlines ∧
      db' = (db.setAvailability a row .occupied).putClaim id claim := by
  unfold claimRandomAssignment at h
  obtain ⟨_, _, h⟩ := bind_ok.mp h
  obtain ⟨task, htask, h⟩ := orRefuse_bind_ok.mp h
  obtain ⟨_, _, h⟩ := bind_ok.mp h
  obtain ⟨_, h⟩ := ensure_bind_ok.mp h
  obtain ⟨hactive, h⟩ := ensure_bind_ok.mp h
  obtain ⟨a, _, h⟩ := orRefuse_bind_ok.mp h
  obtain ⟨row, hrow, h⟩ := orRefuse_bind_ok.mp h
  obtain ⟨deadlines, _, h⟩ := bind_ok.mp h
  obtain ⟨htaken, h⟩ := ensure_bind_ok.mp h
  obtain ⟨hfree, h⟩ := ensure_bind_ok.mp h
  obtain ⟨hget, _, havailable, hgave⟩ := candidate_eq_some.mp hrow
  cases h
  exact ⟨a, row, task, deadlines, htask, hget, havailable, hgave, htaken, hactive, hfree, rfl,
    rfl⟩

/-- An expiry writes nothing, or it ends a claim that awaits the student. -/
theorem expireClaimIfDue_cases (db : Db) (id : ClaimId) (now : Instant) :
    (expireClaimIfDue db id now).2 = db ∨
      ∃ claim, db.claims.get id = some claim ∧ claim.status.actionable = true ∧
        (expireClaimIfDue db id now).2 =
          (db.leaveOccupied claim.assignmentId .available).putClaim id
            (claim.terminate .expired now) := by
  unfold expireClaimIfDue
  split
  next => exact Or.inl rfl
  next claim hget =>
    split
    next => exact Or.inl rfl
    next =>
      split
      next => exact Or.inl rfl
      next hactionable =>
        split
        next => exact Or.inl rfl
        next =>
          split
          next => exact Or.inl rfl
          next =>
            rw [Bool.not_eq_false] at hactionable
            exact Or.inr ⟨claim, hget, hactionable, rfl⟩

/-- An abandon is a replay, or it ends a claim that awaits the student. -/
theorem abandonClaim_ok {day : Instant × Instant} {limit : ℕ} {user : UserId} {id : ClaimId}
    {claim' : AssignmentClaim} (h : abandonClaim db now day limit user id = .ok (claim', db')) :
    db' = db ∨ ∃ claim, db.claims.get id = some claim ∧ claim.userId = user ∧
      claim.status.actionable = true ∧ db.abandonsBetween user day.1 day.2 < limit ∧
      db' = (db.leaveOccupied claim.assignmentId .available).putClaim id
        (claim.terminate .abandoned now) := by
  unfold abandonClaim at h
  obtain ⟨_, _, h⟩ := bind_ok.mp h
  obtain ⟨claim, hget, h⟩ := orRefuse_bind_ok.mp h
  obtain ⟨howner, h⟩ := ensure_bind_ok.mp h
  split at h
  next =>
    cases h
    exact Or.inl rfl
  next =>
    obtain ⟨hactionable, h⟩ := ensure_bind_ok.mp h
    obtain ⟨hcount, h⟩ := ensure_bind_ok.mp h
    cases h
    exact Or.inr ⟨claim, hget, howner, hactionable, hcount, rfl⟩

end Outcomes

end CampusQuest.Lifecycle
