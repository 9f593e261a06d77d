import CampusQuest.PointService
import CampusQuest.RewardLock

/-!
The human review of a validated submission. A return for revision keeps the lock, an
invalidation cancels it, and an approval completes claim and assignment and pays the locked
points in the same transaction.
-/

namespace CampusQuest.Lifecycle

open Tables Guards

def revisionWindow : Duration := hours 24

/-- The task's owner, an administrator, or a collaborator with REVIEW_SUBMISSIONS. A
missing task row denies. -/
def reviewer (db : Db) (taskId : TaskId) (actor : Actor) : Bool :=
  match db.tasks.get taskId with
  | none => false
  | some task =>
    task.ownerTeacherId = actor.userId || isAdmin actor.role ||
      (db.collaborators.get (taskId, actor.userId)).any fun permissions =>
        .reviewSubmissions ∈ permissions

def requireSubmissionGates (claim : AssignmentClaim) (id : SubmissionId) (s : Submission) :
    Answer Unit := do
  ensure (s.validationStatus = .validated) (.submissionNotValidated id s.validationStatus)
  ensure (claim.latestSubmissionId = some id)
    (.staleSubmissionVersion id claim.latestSubmissionId)

/-- The preamble that every review action but an approval shares. -/
def lockedReviewable (db : Db) (actor : Actor) (id : SubmissionId) :
    Answer (Submission × AssignmentClaim) := do
  let s ← orRefuse (.submissionNotFound id) (db.submissions.get id)
  let claim ← orRefuse .assertionFailed (db.claims.get s.claimId)
  ensure (claim.status.terminal = false) (.claimNotReviewable s.claimId claim.status)
  requireSubmissionGates claim id s
  ensure (reviewer db claim.taskId actor = true)
    (.reviewerPermissionDenied claim.taskId actor.userId)
  return (s, claim)

/-- The later of the present window and a day from the review. -/
def revisionDeadline (claim : AssignmentClaim) (now : Instant) : Instant :=
  max (claim.revisionDeadlineAt.getD claim.graceDeadlineAt) (now + revisionWindow)

def AssignmentClaim.returned (claim : AssignmentClaim) (now : Instant) : AssignmentClaim :=
  { claim with
    status := .revisionRequired
    revisionDeadlineAt := some (revisionDeadline claim now) }

def AssignmentClaim.unlock (claim : AssignmentClaim) : AssignmentClaim :=
  { claim with
    rewardLockStatus := .invalidated
    rewardTierLocked := none
    rewardLockedAt := none
    lockedRewardPoints := none
    locked_reward_points := no_points_locked }

def Submission.review (s : Submission) (status : ReviewStatus) (reviewer : UserId)
    (now : Instant) (note : Option Text) : Submission :=
  { s with
    reviewStatus := status
    reviewerId := some reviewer
    reviewedAt := some now
    reviewNote := note }

def noteText (note : Option Text) : Option Text :=
  if strippedReason note = [] then none else some (strippedReason note)

def requireRevision (db : Db) (now : Instant) (actor : Actor) (id : SubmissionId)
    (note : Option Text) : Answer (AssignmentClaim × Db) := do
  let (s, claim) ← lockedReviewable db actor id
  let returned := claim.returned now
  return (returned, (db.putSubmission id (s.review .revisionRequired actor.userId now
    (noteText note))).putClaim s.claimId returned)

def invalidateRewardLock (db : Db) (now : Instant) (actor : Actor) (id : SubmissionId)
    (reason : Option Text) : Answer (AssignmentClaim × Db) := do
  ensure (strippedReason reason ≠ []) (.invalidationReasonRequired id)
  let (s, claim) ← lockedReviewable db actor id
  ensure (claim.rewardLockStatus = .provisional) (.lockNotInvalidatable id claim.rewardLockStatus)
  let returned := claim.unlock.returned now
  let row : RewardLockHistory := {
    claimId := s.claimId
    submissionId := id
    lockStatusFrom := .provisional
    lockStatusTo := .invalidated
    rewardTierLocked := claim.rewardTierLocked
    lockedRewardPoints := claim.lockedRewardPoints
    changedBy := some actor.userId
    reason := .invalidated (strippedReason reason) }
  return (returned, { (db.putSubmission id (s.review .revisionRequired actor.userId now
    (some (strippedReason reason)))).putClaim s.claimId returned with
      lockHistory := db.lockHistory ++ [row] })

def claimLockTime (claim : AssignmentClaim) : Option Instant :=
  claim.rewardLockedAt.or claim.terminalAt

/-- The points port: the grant joins the approval's transaction. -/
def grantReward (points : Points.PointsDb) (claimId : ClaimId) (claim : AssignmentClaim)
    (amount : ℤ) : Answer (Points.PointsLedger × Points.PointsDb) :=
  match claimLockTime claim with
  | none => .error (.points (.invalidLedgerEntry .rankingEffectiveAt
      "认领缺少奖励锁时间，无法确定排名生效时间"))
  | some effectiveAt =>
    match (Points.grantAssignmentReward claimId claim.userId amount (some effectiveAt)).run
        points with
    | .ok granted => .ok granted
    | .error e => .error (.points e)

structure GrantResult where
  userId : UserId
  claimId : ClaimId
  pointsGranted : ℤ
  deriving DecidableEq

structure ApprovalResult where
  claim : AssignmentClaim
  grant : Option GrantResult
  alreadyReviewed : Bool

def AssignmentClaim.complete (claim : AssignmentClaim) (now : Instant) : AssignmentClaim :=
  { claim with
    status := .completed
    terminalAt := some now
    rewardLockStatus := .confirmed }

def approveSubmission (db : Db) (now : Instant) (actor : Actor) (id : SubmissionId) :
    Answer (ApprovalResult × Db) := do
  let s ← orRefuse (.submissionNotFound id) (db.submissions.get id)
  let claim ← orRefuse .assertionFailed (db.claims.get s.claimId)
  if claim.status = .completed then return (⟨claim, none, true⟩, db)
  else do
    ensure (claim.status.terminal = false) (.claimNotReviewable s.claimId claim.status)
    requireSubmissionGates claim id s
    ensure (reviewer db claim.taskId actor = true)
      (.reviewerPermissionDenied claim.taskId actor.userId)
    ensure (claim.rewardLockStatus = .provisional)
      (.lockNotProvisional s.claimId claim.rewardLockStatus)
    let tier ← orRefuse .assertionFailed claim.rewardTierLocked
    let points ← orRefuse .assertionFailed claim.lockedRewardPoints
    let completed := claim.complete now
    let row : RewardLockHistory := {
      claimId := s.claimId
      submissionId := id
      lockStatusFrom := .provisional
      lockStatusTo := .confirmed
      rewardTierLocked := some tier
      lockedRewardPoints := some points
      changedBy := some actor.userId
      reason := .confirm }
    let _ ← orRefuse .assertionFailed (db.assignments.get claim.assignmentId)
    let (entry, paid) ← grantReward db.points s.claimId completed points
    return (⟨completed, some ⟨claim.userId, s.claimId, entry.amount⟩, false⟩,
      { ((db.leaveOccupied claim.assignmentId .completed).putSubmission id
          (s.review .approved actor.userId now none)).putClaim s.claimId completed with
        lockHistory := db.lockHistory ++ [row]
        points := paid })

section Outcomes

variable {db db' : Db} {now : Instant} {actor : Actor} {id : SubmissionId}

structure Reviewable (db : Db) (actor : Actor) (id : SubmissionId) (s : Submission)
    (claim : AssignmentClaim) : Prop where
  found : db.submissions.get id = some s
  held : db.claims.get s.claimId = some claim
  active : claim.status.active = true
  validated : s.validationStatus = .validated
  latest : claim.latestSubmissionId = some id
  permitted : reviewer db claim.taskId actor = true

theorem requireSubmissionGates_ok {claim : AssignmentClaim} {s : Submission} {u : Unit} :
    requireSubmissionGates claim id s = .ok u ↔
      s.validationStatus = .validated ∧ claim.latestSubmissionId = some id := by
  unfold requireSubmissionGates
  rw [ensure_bind_ok, ensure_ok]

theorem active_of_not_terminal {status : ClaimStatus} (h : status.terminal = false) :
    status.active = true := by
  rw [ClaimStatus.terminal_eq_not_active] at h
  simpa using h

theorem lockedReviewable_ok {s : Submission} {claim : AssignmentClaim} :
    lockedReviewable db actor id = .ok (s, claim) ↔ Reviewable db actor id s claim := by
  unfold lockedReviewable
  rw [orRefuse_bind_ok]
  constructor
  · rintro ⟨s', hs, h⟩
    obtain ⟨claim', hclaim, h⟩ := orRefuse_bind_ok.mp h
    obtain ⟨hterminal, h⟩ := ensure_bind_ok.mp h
    obtain ⟨_, hgates, h⟩ := bind_ok.mp h
    obtain ⟨hvalidated, hlatest⟩ := requireSubmissionGates_ok.mp hgates
    obtain ⟨hpermitted, h⟩ := ensure_bind_ok.mp h
    cases h
    exact ⟨hs, hclaim, active_of_not_terminal hterminal, hvalidated, hlatest, hpermitted⟩
  · rintro ⟨hs, hclaim, hactive, hvalidated, hlatest, hpermitted⟩
    refine ⟨s, hs, ?_⟩
    rw [orRefuse_bind_ok]
    refine ⟨claim, hclaim, ?_⟩
    rw [ensure_bind_ok]
    have hterminal : claim.status.terminal = false := by
      rw [ClaimStatus.terminal_eq_not_active, hactive]
      decide
    refine ⟨hterminal, ?_⟩
    rw [bind_ok]
    refine ⟨(), requireSubmissionGates_ok.mpr ⟨hvalidated, hlatest⟩, ?_⟩
    rw [ensure_bind_ok]
    exact ⟨hpermitted, rfl⟩

theorem requireRevision_ok {note : Option Text} {claim' : AssignmentClaim} :
    requireRevision db now actor id note = .ok (claim', db') ↔
      ∃ s claim, Reviewable db actor id s claim ∧ claim' = claim.returned now ∧
        db' = (db.putSubmission id (s.review .revisionRequired actor.userId now
          (noteText note))).putClaim s.claimId claim' := by
  unfold requireRevision
  rw [bind_ok]
  constructor
  · rintro ⟨⟨s, claim⟩, hreviewable, h⟩
    cases h
    exact ⟨s, claim, lockedReviewable_ok.mp hreviewable, rfl, rfl⟩
  · rintro ⟨s, claim, hreviewable, rfl, rfl⟩
    exact ⟨(s, claim), lockedReviewable_ok.mpr hreviewable, rfl⟩

theorem invalidateRewardLock_ok {reason : Option Text} {claim' : AssignmentClaim}
    (h : invalidateRewardLock db now actor id reason = .ok (claim', db')) :
    ∃ s claim rows, Reviewable db actor id s claim ∧ claim.rewardLockStatus = .provisional ∧
      claim' = claim.unlock.returned now ∧
      db' = { (db.putSubmission id (s.review .revisionRequired actor.userId now
        (some (strippedReason reason)))).putClaim s.claimId claim' with
          lockHistory := db.lockHistory ++ rows } := by
  unfold invalidateRewardLock at h
  obtain ⟨_, h⟩ := ensure_bind_ok.mp h
  obtain ⟨⟨s, claim⟩, hreviewable, h⟩ := bind_ok.mp h
  obtain ⟨hlock, h⟩ := ensure_bind_ok.mp h
  cases h
  exact ⟨s, claim, _, lockedReviewable_ok.mp hreviewable, hlock, rfl, rfl⟩

/-- The grant answers exactly for a positive amount. -/
theorem grantReward_isOk_iff {points : Points.PointsDb} {claimId : ClaimId}
    {claim : AssignmentClaim} {amount : ℤ} (htime : claimLockTime claim ≠ none) :
    (∃ granted, grantReward points claimId claim amount = .ok granted) ↔ 0 < amount := by
  obtain ⟨effectiveAt, heffective⟩ := Option.ne_none_iff_exists'.mp htime
  unfold grantReward
  rw [heffective]
  dsimp only
  cases hrun : (Points.grantAssignmentReward claimId claim.userId amount (some effectiveAt)).run
      points with
  | ok granted =>
    refine ⟨fun _ => ?_, fun _ => ⟨granted, rfl⟩⟩
    by_contra hnot
    have hamount : amount ≤ 0 := by omega
    unfold Points.grantAssignmentReward at hrun
    rw [if_pos hamount] at hrun
    cases hrun
  | error e =>
    obtain ⟨p, hends⟩ := Transactions.Txn.run_ends_error (D := Points.locking) hrun
    constructor
    · rintro ⟨_, hgranted⟩
      cases hgranted
    · intro hpos
      rcases Points.grantAssignmentReward_ends hends with
        ⟨hamount, _⟩ | ⟨hnone, _⟩ | ⟨_, _, hr, _⟩ | ⟨_, _, _, _, hr, _⟩
      · omega
      · cases hnone
      · cases hr
      · cases hr

/-- A committed approval is a replay, or it completes a reviewable claim with a provisional
lock whose points the ledger takes. -/
theorem approveSubmission_ok {result : ApprovalResult}
    (h : approveSubmission db now actor id = .ok (result, db')) :
    db' = db ∨ ∃ s claim rows paid, Reviewable db actor id s claim ∧
      claim.rewardLockStatus = .provisional ∧
      db' = { ((db.leaveOccupied claim.assignmentId .completed).putSubmission id
        (s.review .approved actor.userId now none)).putClaim s.claimId (claim.complete now) with
          lockHistory := db.lockHistory ++ rows
          points := paid } := by
  unfold approveSubmission at h
  obtain ⟨s, hs, h⟩ := orRefuse_bind_ok.mp h
  obtain ⟨claim, hclaim, h⟩ := orRefuse_bind_ok.mp h
  split at h
  next =>
    cases h
    exact Or.inl rfl
  next =>
    obtain ⟨hterminal, h⟩ := ensure_bind_ok.mp h
    obtain ⟨_, hgates, h⟩ := bind_ok.mp h
    obtain ⟨hvalidated, hlatest⟩ := requireSubmissionGates_ok.mp hgates
    obtain ⟨hpermitted, h⟩ := ensure_bind_ok.mp h
    obtain ⟨hlock, h⟩ := ensure_bind_ok.mp h
    obtain ⟨tier, _, h⟩ := orRefuse_bind_ok.mp h
    obtain ⟨points, _, h⟩ := orRefuse_bind_ok.mp h
    obtain ⟨_, _, h⟩ := orRefuse_bind_ok.mp h
    obtain ⟨⟨entry, paid⟩, _, h⟩ := bind_ok.mp h
    cases h
    exact Or.inr ⟨s, claim, _, paid, ⟨hs, hclaim, active_of_not_terminal hterminal, hvalidated,
      hlatest, hpermitted⟩, hlock, rfl⟩

/-- Past every gate before it, an approval answers exactly when the ledger takes the locked
points, that is when they are positive. -/
theorem approveSubmission_isOk_iff {s : Submission} {claim : AssignmentClaim} {tier points : ℤ}
    (hreviewable : Reviewable db actor id s claim)
    (hlock : claim.rewardLockStatus = .provisional) (htier : claim.rewardTierLocked = some tier)
    (hpoints : claim.lockedRewardPoints = some points)
    (hassignment : db.assignments.get claim.assignmentId ≠ none) :
    (∃ answer, approveSubmission db now actor id = .ok answer) ↔ 0 < points := by
  have hterminal : claim.status.terminal = false := by
    rw [ClaimStatus.terminal_eq_not_active, hreviewable.active]
    decide
  have hcompleted : claim.status ≠ .completed := by
    intro hstatus
    rw [hstatus] at hterminal
    cases hterminal
  have htime : claimLockTime (claim.complete now) ≠ none := by
    unfold claimLockTime AssignmentClaim.complete
    cases claim.rewardLockedAt <;> simp
  obtain ⟨row, hrow⟩ := Option.ne_none_iff_exists'.mp hassignment
  have hgates : requireSubmissionGates claim id s = .ok () :=
    requireSubmissionGates_ok.mpr ⟨hreviewable.validated, hreviewable.latest⟩
  have hgrant : (∃ granted, grantReward db.points s.claimId (claim.complete now) points =
      .ok granted) ↔ 0 < points := grantReward_isOk_iff htime
  unfold approveSubmission
  rw [hreviewable.found, orRefuse_some_bind, hreviewable.held, orRefuse_some_bind,
    if_neg hcompleted, ensure_true_bind hterminal, hgates]
  change (∃ answer, (ensure (reviewer db claim.taskId actor = true) _ >>= _) = .ok answer) ↔ _
  rw [ensure_true_bind hreviewable.permitted, ensure_true_bind hlock, htier, orRefuse_some_bind,
    hpoints, orRefuse_some_bind]
  dsimp only
  rw [hrow, orRefuse_some_bind]
  cases hgranted : grantReward db.points s.claimId (claim.complete now) points with
  | ok granted => exact ⟨fun _ => hgrant.mp ⟨granted, hgranted⟩, fun _ => ⟨_, rfl⟩⟩
  | error e =>
    constructor
    · rintro ⟨_, hanswer⟩
      cases hanswer
    · intro hpos
      obtain ⟨granted, hok⟩ := hgrant.mpr hpos
      rw [hgranted] at hok
      cases hok

end Outcomes

end CampusQuest.Lifecycle
