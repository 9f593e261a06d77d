import Mathlib
import CampusQuest.Leases
import CampusQuest.PointRows

/-!
Rows of the tasks and submissions modules. A claim snapshots its task when it is made; its
base reward is positive because the task's is. Each row carries the table's CHECK
constraints. A display name or a notification setting that no modelled service reads is not
a column here.
-/

namespace CampusQuest.Lifecycle

open Tables

inductive UserStatus
  | pendingPhone
  | active
  | suspended
  | banned
  | pendingApproval
  deriving DecidableEq, Repr

inductive TaskStatus
  | draft
  | published
  | paused
  | closed
  | archived
  deriving DecidableEq, Repr

inductive DeadlineMode
  | fixed
  | relative
  deriving DecidableEq, Repr

inductive FileType
  | csv
  | xlsx
  | sqlite
  | docx
  | pdf
  deriving DecidableEq, Repr

inductive RetentionPolicy
  | days30
  | days90
  | days180
  | permanent
  deriving DecidableEq, Repr

inductive CollaboratorPermission
  | viewTask
  | manageAssignments
  | reviewSubmissions
  | moderateCommunity
  deriving DecidableEq, Repr

inductive AssignmentAvailability
  | available
  | occupied
  | completed
  | retired
  deriving DecidableEq, Repr

inductive ClaimStatus
  | claimed
  | validating
  | underReview
  | revisionRequired
  | completed
  | abandoned
  | expired
  deriving DecidableEq, Repr

inductive RewardLockStatus
  | none
  | provisional
  | confirmed
  | invalidated
  deriving DecidableEq, Repr

inductive ValidationStatus
  | uploaded
  | validating
  | validated
  | validationFailed
  deriving DecidableEq, Repr

inductive ReviewStatus
  | pendingReview
  | underReview
  | approved
  | revisionRequired
  deriving DecidableEq, Repr

namespace ClaimStatus

/-- `ACTIVE_CLAIM_STATUSES`, the condition of both partial unique indexes. -/
def active : ClaimStatus → Bool
  | claimed | validating | underReview | revisionRequired => true
  | completed | abandoned | expired => false

def terminal : ClaimStatus → Bool
  | completed | abandoned | expired => true
  | claimed | validating | underReview | revisionRequired => false

def actionable : ClaimStatus → Bool
  | claimed | revisionRequired => true
  | validating | underReview | completed | abandoned | expired => false

def quotaOccupying (s : ClaimStatus) : Bool := s.actionable

def expiryActionable (s : ClaimStatus) : Bool := s.actionable

def abandonable (s : ClaimStatus) : Bool := s.actionable

def submittable (s : ClaimStatus) : Bool := s.actionable

def reassignExcluded : ClaimStatus → Bool
  | abandoned | expired => true
  | claimed | validating | underReview | revisionRequired | completed => false

def reviewEntry : ClaimStatus → Bool
  | claimed | validating | revisionRequired => true
  | underReview | completed | abandoned | expired => false

theorem terminal_eq_not_active (s : ClaimStatus) : s.terminal = !s.active := by
  cases s <;> rfl

theorem active_of_actionable {s : ClaimStatus} (h : s.actionable = true) : s.active = true := by
  cases s <;> simp_all [actionable, active]

theorem active_of_reviewEntry {s : ClaimStatus} (h : s.reviewEntry = true) : s.active = true := by
  cases s <;> simp_all [reviewEntry, active]

end ClaimStatus

def ValidationStatus.terminal : ValidationStatus → Bool
  | .validated | .validationFailed => true
  | .uploaded | .validating => false

structure Account where
  role : Role
  status : UserStatus
  deriving DecidableEq

structure Task where
  ownerTeacherId : UserId
  baseRewardPoints : ℤ
  status : TaskStatus
  deadlineMode : DeadlineMode
  fixedDeadlineAt : Option Instant
  durationMinutes : Option ℤ
  gracePeriodMinutes : ℤ
  claimCutoffMinutes : ℤ
  submissionSchemaVersion : Option ℤ
  allowedFileTypes : List FileType
  maxFileSizeBytes : ℤ
  retentionPolicy : RetentionPolicy
  base_reward_points : 0 < baseRewardPoints
  duration_minutes : ∀ m, durationMinutes = some m → 0 < m
  grace_period_minutes : gracePeriodMinutes = 1440
  claim_cutoff_minutes : 0 ≤ claimCutoffMinutes
  max_file_size_bytes : 0 < maxFileSizeBytes

structure Assignment where
  taskId : TaskId
  availabilityStatus : AssignmentAvailability
  deriving DecidableEq

theorem no_points_locked : ∀ n : ℤ, none = some n → 0 ≤ n := by simp

structure AssignmentClaim where
  assignmentId : AssignmentId
  taskId : TaskId
  userId : UserId
  status : ClaimStatus
  claimedAt : Instant
  deadlineAt : Instant
  graceDeadlineAt : Instant
  baseRewardPointsSnapshot : ℤ
  submissionSchemaVersion : Option ℤ
  rewardLockStatus : RewardLockStatus
  rewardTierLocked : Option ℤ
  rewardLockedAt : Option Instant
  lockedRewardPoints : Option ℤ
  latestSubmissionId : Option SubmissionId
  revisionDeadlineAt : Option Instant
  terminalAt : Option Instant
  base_reward_points_snapshot : 0 < baseRewardPointsSnapshot
  locked_reward_points : ∀ n, lockedRewardPoints = some n → 0 ≤ n
  deriving DecidableEq

/-- A report of the sandboxed validator: it passes when it has no error finding. -/
structure ValidationReport where
  parserVersion : Text
  errors : List Text
  deriving DecidableEq

def ValidationReport.passed (r : ValidationReport) : Bool := r.errors.isEmpty

structure Submission where
  claimId : ClaimId
  version : ℕ
  objectKey : Text
  declaredType : FileType
  detectedType : Option FileType
  fileSize : ℤ
  submittedAt : Instant
  validationStatus : ValidationStatus
  reviewStatus : ReviewStatus
  validationReport : Option ValidationReport
  reviewerId : Option UserId
  reviewedAt : Option Instant
  reviewNote : Option Text
  retentionUntil : Option Instant
  retentionPermanent : Bool
  legalHold : Bool
  deletedAt : Option Instant
  cleanupClaimedAt : Option Instant
  cleanupLeaseExpiresAt : Option Instant
  cleanupClaimToken : Option ℕ
  file_size : 0 ≤ fileSize
  version_pos : 1 ≤ version
  retention_exclusive : retentionPermanent = true ↔ retentionUntil = none
  deriving DecidableEq

abbrev RunId := ℕ

structure UploadIntent where
  claimId : ClaimId
  objectKey : Text
  declaredType : FileType
  declaredSize : ℤ
  expiresAt : Instant
  consumedAt : Option Instant
  finalizedSubmissionId : Option SubmissionId
  cleanupClaimedAt : Option Instant
  cleanupLeaseExpiresAt : Option Instant
  cleanupClaimToken : Option ℕ
  cleanupDeletedAt : Option Instant
  declared_size : 0 ≤ declaredSize
  finalized_implies_consumed : finalizedSubmissionId ≠ none → consumedAt ≠ none
  deriving DecidableEq

structure SubmissionValidation where
  submissionId : SubmissionId
  parserVersion : Text
  status : ValidationStatus
  report : Option ValidationReport
  startedAt : Instant
  finishedAt : Option Instant
  run_status : status ≠ .uploaded
  deriving DecidableEq

inductive LockReason
  | firstLock
  | relock
  | relockClamped
  | confirm
  | invalidated (reason : Text)
  deriving DecidableEq

structure RewardLockHistory where
  claimId : ClaimId
  submissionId : SubmissionId
  lockStatusFrom : RewardLockStatus
  lockStatusTo : RewardLockStatus
  rewardTierLocked : Option ℤ
  lockedRewardPoints : Option ℤ
  changedBy : Option UserId
  reason : LockReason
  deriving DecidableEq

/-- The tables of the claim lifecycle, with the points tables an approval pays into. -/
structure Db where
  users : Table UserId Account
  tasks : Table TaskId Task
  collaborators : Table (TaskId × UserId) (List CollaboratorPermission)
  assignments : Table AssignmentId Assignment
  claims : Table ClaimId AssignmentClaim
  submissions : Table SubmissionId Submission
  intents : Table IntentId UploadIntent
  runs : Table RunId SubmissionValidation
  lockHistory : List RewardLockHistory
  points : Points.PointsDb

/-- An unfinished deletion claim of the file cleanup: a marker is set and the object is not
yet gone. The lease clock is not consulted. -/
def Submission.cleanupUnfinished (s : Submission) : Bool :=
  s.deletedAt.isNone && (s.cleanupClaimedAt.isSome || s.cleanupClaimToken.isSome)

abbrev CleanupLease := Leases.Lease Instant ℕ

def Submission.lease (s : Submission) : CleanupLease :=
  ⟨s.cleanupClaimedAt, s.cleanupLeaseExpiresAt, s.cleanupClaimToken, s.deletedAt⟩

def Submission.withLease (s : Submission) (l : CleanupLease) : Submission :=
  { s with
    deletedAt := l.doneAt
    cleanupClaimedAt := l.claimedAt
    cleanupLeaseExpiresAt := l.expiresAt
    cleanupClaimToken := l.token }

def UploadIntent.lease (i : UploadIntent) : CleanupLease :=
  ⟨i.cleanupClaimedAt, i.cleanupLeaseExpiresAt, i.cleanupClaimToken, i.cleanupDeletedAt⟩

def UploadIntent.withLease (i : UploadIntent) (l : CleanupLease) : UploadIntent :=
  { i with
    cleanupClaimedAt := l.claimedAt
    cleanupLeaseExpiresAt := l.expiresAt
    cleanupClaimToken := l.token
    cleanupDeletedAt := l.doneAt }

@[simp] theorem Submission.lease_withLease (s : Submission) (l : CleanupLease) :
    (s.withLease l).lease = l := rfl

@[simp] theorem Submission.withLease_lease (s : Submission) : s.withLease s.lease = s := rfl

@[simp] theorem UploadIntent.lease_withLease (i : UploadIntent) (l : CleanupLease) :
    (i.withLease l).lease = l := rfl

@[simp] theorem UploadIntent.withLease_lease (i : UploadIntent) : i.withLease i.lease = i := rfl

theorem Submission.cleanupUnfinished_eq (s : Submission) :
    s.cleanupUnfinished = s.lease.unfinished := rfl

namespace Db

def unfinishedCleanups (db : Db) (claim : ClaimId) : Finset SubmissionId :=
  db.submissions.keys.filter fun id =>
    (db.submissions.get id).any fun s => s.claimId == claim && s.cleanupUnfinished

/-- The highest version among the submissions of a claim, zero when there is none. -/
def maxVersion (db : Db) (claim : ClaimId) : ℕ :=
  db.submissions.keys.sup fun id =>
    (db.submissions.get id).elim 0 fun s => if s.claimId = claim then s.version else 0

theorem version_le_maxVersion {db : Db} {id : SubmissionId} {s : Submission}
    (h : db.submissions.get id = some s) : s.version ≤ db.maxVersion s.claimId := by
  have hmem : id ∈ db.submissions.keys := by
    by_contra hnot
    have hnone : db.submissions.get id = none := Finmap.lookup_eq_none.mpr
      fun hin => hnot (Finmap.mem_keys.mpr hin)
    rw [h] at hnone
    cases hnone
  have hle := Finset.le_sup (f := fun id => (db.submissions.get id).elim 0 fun r =>
    if r.claimId = s.claimId then r.version else 0) hmem
  simp only [h, Option.elim_some, if_true] at hle
  exact hle

/-- The highest version is carried by a submission of the claim, or there is none. -/
theorem exists_maxVersion (db : Db) (claim : ClaimId) : db.maxVersion claim = 0 ∨
    ∃ id s, db.submissions.get id = some s ∧ s.claimId = claim ∧
      s.version = db.maxVersion claim := by
  by_cases hzero : db.maxVersion claim = 0
  · exact Or.inl hzero
  · right
    have hnonempty : db.submissions.keys.Nonempty := by
      by_contra hempty
      rw [Finset.not_nonempty_iff_eq_empty] at hempty
      apply hzero
      unfold maxVersion
      rw [hempty]
      rfl
    obtain ⟨id, _, hid⟩ := Finset.exists_mem_eq_sup db.submissions.keys hnonempty fun id =>
      (db.submissions.get id).elim 0 fun s => if s.claimId = claim then s.version else 0
    have hmax : db.maxVersion claim = (db.submissions.get id).elim 0 fun s =>
      if s.claimId = claim then s.version else 0 := hid
    cases hget : db.submissions.get id with
    | none =>
      rw [hget] at hmax
      exact absurd hmax hzero
    | some s =>
      rw [hget, Option.elim_some] at hmax
      split at hmax
      next hclaim => exact ⟨id, s, hget, hclaim, hmax.symm⟩
      next => exact absurd hmax hzero

end Db

end CampusQuest.Lifecycle
