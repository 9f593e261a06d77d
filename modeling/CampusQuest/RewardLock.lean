import CampusQuest.Validation

/-!
The reward lock. A validated submission locks the tier of its submit instant and moves the
claim into review; the lock survives later submissions, and only an invalidated one is
made anew.
-/

namespace CampusQuest.Lifecycle

open Tables Guards

/-- The tier that a lock takes, and whether it was clamped: a lock made anew past the grace
deadline takes the lowest tier, a first lock there is refused as corrupt. -/
def lockFraction (claim : AssignmentClaim) (id : SubmissionId) (s : Submission) :
    Answer (RewardFraction × Bool) :=
  match rewardFraction s.submittedAt claim.deadlineAt claim.graceDeadlineAt with
  | .ok fraction => .ok (fraction, false)
  | .error _ =>
    if claim.rewardLockStatus ≠ .invalidated then
      .error (.rewardWindowInconsistent id s.submittedAt claim.graceDeadlineAt)
    else .ok (.late, true)

def AssignmentClaim.lock (claim : AssignmentClaim) (fraction : RewardFraction)
    (submittedAt : Instant) : AssignmentClaim :=
  { claim with
    rewardLockStatus := .provisional
    rewardTierLocked := some fraction.tierPercent
    rewardLockedAt := some submittedAt
    lockedRewardPoints := some (rewardPoints claim.baseRewardPointsSnapshot fraction)
    locked_reward_points := by
      intro n hn
      cases hn
      exact rewardPoints_nonneg claim.base_reward_points_snapshot fraction }

def lockHistoryRow (claimId : ClaimId) (claim : AssignmentClaim) (id : SubmissionId)
    (fraction : RewardFraction) (clamped : Bool) : RewardLockHistory where
  claimId := claimId
  submissionId := id
  lockStatusFrom := claim.rewardLockStatus
  lockStatusTo := .provisional
  rewardTierLocked := some fraction.tierPercent
  lockedRewardPoints := some (rewardPoints claim.baseRewardPointsSnapshot fraction)
  changedBy := none
  reason :=
    if clamped then .relockClamped
    else if claim.rewardLockStatus = .none then .firstLock
    else .relock

def RewardLockStatus.unlocked : RewardLockStatus → Bool
  | .none | .invalidated => true
  | .provisional | .confirmed => false

def establishLock (claimId : ClaimId) (claim : AssignmentClaim) (id : SubmissionId)
    (s : Submission) : Answer (AssignmentClaim × List RewardLockHistory) :=
  if claim.rewardLockStatus.unlocked = true then do
    let (fraction, clamped) ← lockFraction claim id s
    return (claim.lock fraction s.submittedAt,
      [lockHistoryRow claimId claim id fraction clamped])
  else return (claim, [])

/-- The UNDER_REVIEW entry, past the cleanup guard. -/
def enterReview (db : Db) (claimId : ClaimId) (claim : AssignmentClaim) :
    Answer AssignmentClaim :=
  if claim.status.reviewEntry = true then do
    ensureNoActiveCleanupClaim db claimId
    return claim.withStatus .underReview
  else return claim

/-- `_bump_latest`: an older version never replaces a newer one. -/
def bumpLatest (db : Db) (claim : AssignmentClaim) (id : SubmissionId) (s : Submission) :
    AssignmentClaim :=
  if claim.latestSubmissionId = some id then claim
  else
    match claim.latestSubmissionId.bind db.submissions.get with
    | some current => if s.version ≤ current.version then claim else claim.withLatest id
    | none => claim.withLatest id

def onValidationPassed (db : Db) (id : SubmissionId) : Answer (AssignmentClaim × Db) := do
  let s ← orRefuse (.submissionNotFound id) (db.submissions.get id)
  let claim ← orRefuse .assertionFailed (db.claims.get s.claimId)
  ensure (s.validationStatus = .validated) (.submissionNotValidated id s.validationStatus)
  if claim.status.terminal = true then return (claim, db)
  else do
    let (locked, rows) ← establishLock s.claimId claim id s
    let entered ← enterReview db s.claimId locked
    let bumped := bumpLatest db entered id s
    return (bumped,
      { db.putClaim s.claimId bumped with lockHistory := db.lockHistory ++ rows })

section Outcomes

variable {db db' : Db}

/-- A lock that cannot be made is a first lock at or past the grace deadline. -/
theorem lockFraction_error {claim : AssignmentClaim} {id : SubmissionId} {s : Submission}
    {e : LifecycleError} (h : lockFraction claim id s = .error e) :
    claim.graceDeadlineAt ≤ s.submittedAt ∧ claim.rewardLockStatus ≠ .invalidated ∧
      e = .rewardWindowInconsistent id s.submittedAt claim.graceDeadlineAt := by
  unfold lockFraction at h
  split at h
  next => cases h
  next _ hclosed =>
    split at h
    next hlock =>
      cases h
      exact ⟨rewardFraction_error hclosed, hlock, rfl⟩
    next => cases h

theorem establishLock_ok {claimId : ClaimId} {claim locked : AssignmentClaim}
    {id : SubmissionId} {s : Submission} {rows : List RewardLockHistory} :
    establishLock claimId claim id s = .ok (locked, rows) ↔
      (claim.rewardLockStatus.unlocked = false ∧ locked = claim ∧ rows = []) ∨
      ∃ fraction clamped, claim.rewardLockStatus.unlocked = true ∧
        lockFraction claim id s = .ok (fraction, clamped) ∧
        locked = claim.lock fraction s.submittedAt ∧
        rows = [lockHistoryRow claimId claim id fraction clamped] := by
  unfold establishLock
  by_cases hunlocked : claim.rewardLockStatus.unlocked = true
  · rw [if_pos hunlocked, bind_ok]
    constructor
    · rintro ⟨⟨fraction, clamped⟩, hfraction, h⟩
      cases h
      exact Or.inr ⟨fraction, clamped, hunlocked, hfraction, rfl, rfl⟩
    · rintro (⟨hlocked, _⟩ | ⟨fraction, clamped, _, hfraction, rfl, rfl⟩)
      · rw [hunlocked] at hlocked
        cases hlocked
      · exact ⟨_, hfraction, rfl⟩
  · rw [if_neg hunlocked]
    rw [Bool.not_eq_true] at hunlocked
    constructor
    · intro h
      cases h
      exact Or.inl ⟨hunlocked, rfl, rfl⟩
    · rintro (⟨_, rfl, rfl⟩ | ⟨_, _, hlocked, _⟩)
      · rfl
      · rw [hunlocked] at hlocked
        cases hlocked

/-- A lock is established exactly unless it would be a first lock at or past the grace
deadline. -/
theorem establishLock_isOk_iff {claimId : ClaimId} {claim : AssignmentClaim}
    {id : SubmissionId} {s : Submission} :
    (∃ locked rows, establishLock claimId claim id s = .ok (locked, rows)) ↔
      (claim.rewardLockStatus = .none → s.submittedAt < claim.graceDeadlineAt) := by
  constructor
  · rintro ⟨locked, rows, hlocked⟩ hnone
    rcases establishLock_ok.mp hlocked with ⟨hunlocked, _⟩ | ⟨fraction, clamped, _, hfraction, _⟩
    · rw [hnone] at hunlocked
      cases hunlocked
    · by_contra hlate
      have hclosed : claim.graceDeadlineAt ≤ s.submittedAt := not_lt.mp hlate
      unfold lockFraction rewardFraction at hfraction
      rw [if_pos hclosed, hnone] at hfraction
      cases hfraction
  · intro hopen
    by_cases hunlocked : claim.rewardLockStatus.unlocked = true
    · cases hfraction : lockFraction claim id s with
      | ok result =>
        exact ⟨_, _, establishLock_ok.mpr (Or.inr ⟨result.1, result.2, hunlocked, hfraction, rfl,
          rfl⟩)⟩
      | error e =>
        obtain ⟨hlate, hlock, _⟩ := lockFraction_error hfraction
        have hnone : claim.rewardLockStatus = .none := by
          cases hstatus : claim.rewardLockStatus <;> simp_all [RewardLockStatus.unlocked]
        exact absurd (hopen hnone) (not_lt.mpr hlate)
    · rw [Bool.not_eq_true] at hunlocked
      exact ⟨claim, [], establishLock_ok.mpr (Or.inl ⟨hunlocked, rfl, rfl⟩)⟩

def Db.EntryRefused (db : Db) (claimId : ClaimId) (claim : AssignmentClaim) : Prop :=
  claim.status.reviewEntry = true ∧ db.unfinishedCleanups claimId ≠ ∅

def AssignmentClaim.entered (claim : AssignmentClaim) : AssignmentClaim :=
  if claim.status.reviewEntry = true then claim.withStatus .underReview else claim

theorem enterReview_ok {claimId : ClaimId} {claim entered : AssignmentClaim} :
    enterReview db claimId claim = .ok entered ↔
      ¬ db.EntryRefused claimId claim ∧ entered = claim.entered := by
  unfold enterReview Db.EntryRefused AssignmentClaim.entered
  by_cases hentry : claim.status.reviewEntry = true
  · simp only [hentry, if_true]
    unfold ensureNoActiveCleanupClaim
    rw [ensure_bind_ok]
    constructor
    · rintro ⟨hguard, h⟩
      cases h
      exact ⟨by simp [hguard], rfl⟩
    · rintro ⟨hguard, rfl⟩
      exact ⟨by simpa using hguard, rfl⟩
  · simp only [hentry]
    constructor
    · intro h
      cases h
      exact ⟨by simp, rfl⟩
    · rintro ⟨_, rfl⟩
      rfl

/-- An answer of the lock service: nothing for a terminal claim, otherwise the lock, the
review entry and the pointer of the claim. -/
theorem onValidationPassed_ok {id : SubmissionId} {claim' : AssignmentClaim} :
    onValidationPassed db id = .ok (claim', db') ↔
      ∃ s claim, db.submissions.get id = some s ∧ db.claims.get s.claimId = some claim ∧
        s.validationStatus = .validated ∧
        ((claim.status.terminal = true ∧ claim' = claim ∧ db' = db) ∨
          ∃ locked rows, claim.status.terminal = false ∧
            establishLock s.claimId claim id s = .ok (locked, rows) ∧
            ¬ db.EntryRefused s.claimId locked ∧
            claim' = bumpLatest db locked.entered id s ∧
            db' = { db.putClaim s.claimId claim' with
              lockHistory := db.lockHistory ++ rows }) := by
  unfold onValidationPassed
  rw [orRefuse_bind_ok]
  constructor
  · rintro ⟨s, hs, h⟩
    obtain ⟨claim, hclaim, h⟩ := orRefuse_bind_ok.mp h
    obtain ⟨hvalidated, h⟩ := ensure_bind_ok.mp h
    refine ⟨s, claim, hs, hclaim, hvalidated, ?_⟩
    split at h
    next hterminal =>
      cases h
      exact Or.inl ⟨hterminal, rfl, rfl⟩
    next hterminal =>
      obtain ⟨⟨locked, rows⟩, hlocked, h⟩ := bind_ok.mp h
      obtain ⟨entered, hentered, h⟩ := bind_ok.mp h
      obtain ⟨hguard, rfl⟩ := enterReview_ok.mp hentered
      cases h
      exact Or.inr ⟨locked, rows, by simpa using hterminal, hlocked, hguard, rfl, rfl⟩
  · rintro ⟨s, claim, hs, hclaim, hvalidated, h⟩
    refine ⟨s, hs, ?_⟩
    rw [orRefuse_bind_ok]
    refine ⟨claim, hclaim, ?_⟩
    rw [ensure_bind_ok]
    refine ⟨hvalidated, ?_⟩
    rcases h with ⟨hterminal, rfl, rfl⟩ | ⟨locked, rows, hterminal, hlocked, hguard, rfl, rfl⟩
    · rw [if_pos hterminal]
      rfl
    · rw [if_neg (by simp [hterminal]), bind_ok]
      refine ⟨_, hlocked, ?_⟩
      rw [bind_ok]
      exact ⟨_, enterReview_ok.mpr ⟨hguard, rfl⟩, rfl⟩

/-- The lock service reports a corrupt window only for a first lock at or past the grace
deadline. -/
theorem onValidationPassed_inconsistent {id i : SubmissionId} {t g : Instant}
    (h : onValidationPassed db id = .error (.rewardWindowInconsistent i t g)) :
    ∃ s claim, db.submissions.get id = some s ∧ db.claims.get s.claimId = some claim ∧
      claim.rewardLockStatus = .none ∧ claim.graceDeadlineAt ≤ s.submittedAt := by
  unfold onValidationPassed at h
  rcases bind_error.mp h with hrefused | ⟨s, hs, h⟩
  · rw [orRefuse_error] at hrefused
    cases hrefused.2
  · rcases bind_error.mp h with hrefused | ⟨claim, hclaim, h⟩
    · rw [orRefuse_error] at hrefused
      cases hrefused.2
    · rw [orRefuse_ok] at hs hclaim
      refine ⟨s, claim, hs, hclaim, ?_⟩
      rcases bind_error.mp h with hrefused | ⟨_, _, h⟩
      · rw [ensure_error] at hrefused
        cases hrefused.2
      · split at h
        next => cases h
        next =>
          rcases bind_error.mp h with hrefused | ⟨locked, _, h⟩
          · by_contra hnot
            have hisOk : claim.rewardLockStatus = .none → s.submittedAt < claim.graceDeadlineAt := by
              intro hnone
              by_contra hlate
              exact hnot ⟨hnone, not_lt.mp hlate⟩
            obtain ⟨locked, rows, hlocked⟩ := establishLock_isOk_iff.mpr hisOk
            rw [hlocked] at hrefused
            cases hrefused
          · rcases bind_error.mp h with hrefused | ⟨_, _, h⟩
            · unfold enterReview ensureNoActiveCleanupClaim at hrefused
              split at hrefused
              next =>
                rcases bind_error.mp hrefused with hguard | ⟨_, _, hdone⟩
                · rw [ensure_error] at hguard
                  cases hguard.2
                · cases hdone
              next => cases hrefused
            · cases h

end Outcomes

end CampusQuest.Lifecycle
