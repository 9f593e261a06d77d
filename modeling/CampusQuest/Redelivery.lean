import CampusQuest.ClaimInvariants

/-!
Redelivery of the lock step. A second delivery is judged by the claim and its lock, not by
the submission: it does nothing while the claim is under review or has ended, but a claim
that a review has returned to the student is taken back into review.
-/

namespace CampusQuest.Lifecycle

open Tables Runs System

/-- Every column that the lock step could write is as before. -/
structure SameLocks (db db' : Db) : Prop where
  claims : db'.claims = db.claims
  assignments : db'.assignments = db.assignments
  lockHistory : db'.lockHistory = db.lockHistory

theorem SameLocks.refl (db : Db) : SameLocks db db := ⟨rfl, rfl, rfl⟩

section Redelivery

variable {s : State} {id : SubmissionId} {r : Submission} {c : AssignmentClaim}

/-- A lock step on a claim under review finds the lock and the pointer in place. -/
theorem locked_underReview {locked : AssignmentClaim} {rows : List RewardLockHistory}
    (hpointed : Pointed s) (hsound : LockSound c) (hr : s.db.submissions.get id = some r)
    (hc : s.db.claims.get r.claimId = some c) (hreview : c.status = .underReview)
    (hlocked : establishLock r.claimId c id r = .ok (locked, rows)) :
    bumpLatest s.db locked.entered id r = c ∧ rows = [] := by
  have hprovisional := hsound.review hreview
  rcases establishLock_ok.mp hlocked with ⟨_, rfl, rfl⟩ | ⟨_, _, hunlocked, _⟩
  · have hentered : locked.entered = locked := by
      unfold AssignmentClaim.entered
      rw [hreview]
      rfl
    rw [hentered]
    exact ⟨hpointed.bumpLatest_eq hr hc rfl, rfl⟩
  · rw [hprovisional] at hunlocked
    cases hunlocked

/-- A lock step that may pass takes an active claim into review, with its pointer as it was. -/
theorem enters_review (hpointed : Pointed s) (hr : s.db.submissions.get id = some r)
    (hc : s.db.claims.get r.claimId = some c) (hvalidated : r.validationStatus = .validated)
    (hactive : c.status.active = true) (hguard : s.db.unfinishedCleanups r.claimId = ∅)
    (hlock : c.rewardLockStatus = .none → r.submittedAt < c.graceDeadlineAt) :
    ∃ c', (s.apply (.onValidationPassed id)).db.claims.get r.claimId = some c' ∧
      c'.status = .underReview ∧ c'.latestSubmissionId = c.latestSubmissionId := by
  obtain ⟨locked, rows, hlocked⟩ := establishLock_isOk_iff.mpr hlock
  have hterminal : c.status.terminal = false := by
    rw [ClaimStatus.terminal_eq_not_active, hactive]
    rfl
  have hentry : ¬ s.db.EntryRefused r.claimId locked := fun h => h.2 hguard
  have hanswer := onValidationPassed_ok.mpr ⟨r, c, hr, hc, hvalidated,
    Or.inr ⟨locked, rows, hterminal, hlocked, hentry, rfl, rfl⟩⟩
  have hstatus := locked_status (s := s) hactive hlocked
  have hlatest : locked.entered.latestSubmissionId = c.latestSubmissionId := by
    rw [entered_latestSubmissionId]
    rcases establishLock_cases hlocked with ⟨_, rfl⟩ | ⟨_, _, rfl⟩ <;> rfl
  refine ⟨bumpLatest s.db locked.entered id r, ?_, hstatus, by
    rw [hpointed.bumpLatest_eq hr hc hlatest, hlatest]⟩
  change (s.commitLock id (onValidationPassed s.db id)).db.claims.get r.claimId = _
  rw [hanswer]
  exact Table.get_put_self _ _ _

/-- A redelivery that finds nothing to do writes nothing. -/
theorem redelivery_same (hpointed : Pointed s) (hsound : LockSound c)
    (hr : s.db.submissions.get id = some r) (hc : s.db.claims.get r.claimId = some c)
    (hidle : r.validationStatus ≠ .validated ∨ c.status.terminal = true ∨
      c.status = .underReview ∨ s.db.unfinishedCleanups r.claimId ≠ ∅) :
    SameLocks s.db (s.apply (.onValidationPassed id)).db := by
  change SameLocks s.db (s.commitLock id (onValidationPassed s.db id)).db
  cases hanswer : onValidationPassed s.db id with
  | error e => exact SameLocks.refl s.db
  | ok answer =>
    obtain ⟨claim', db⟩ := answer
    obtain ⟨r₁, c₁, hr₁, hc₁, hvalidated, hstep⟩ := onValidationPassed_ok.mp hanswer
    rw [hr] at hr₁
    cases hr₁
    rw [hc] at hc₁
    cases hc₁
    rcases hstep with ⟨_, _, rfl⟩ | ⟨locked, rows, hterminal, hlocked, hguard, rfl, rfl⟩
    · exact SameLocks.refl s.db
    · have hreview : c.status = .underReview := by
        rcases hidle with hnot | hended | hreview | hcleanup
        · exact absurd hvalidated hnot
        · rw [hended] at hterminal
          cases hterminal
        · exact hreview
        · -- The cleanup guard lets only a claim pass that is in review already.
          have hstatus : locked.status = c.status := by
            rcases establishLock_cases hlocked with ⟨_, rfl⟩ | ⟨_, _, rfl⟩ <;> rfl
          by_contra hnot
          have hactive := active_of_not_terminal hterminal
          refine hguard ⟨?_, hcleanup⟩
          rw [hstatus]
          cases hcase : c.status <;> simp_all [ClaimStatus.active, ClaimStatus.reviewEntry]
      obtain ⟨hclaim, hrows⟩ := locked_underReview hpointed hsound hr hc hreview hlocked
      refine ⟨?_, rfl, ?_⟩
      · change s.db.claims.put r.claimId _ = s.db.claims
        rw [hclaim]
        exact Table.put_get hc
      · change s.db.lockHistory ++ rows = s.db.lockHistory
        rw [hrows, List.append_nil]

/-- A lock step whose effect has been applied before is without effect exactly when the
submission is no longer validated, or its claim has ended or is under review, or the file
cleanup holds a submission of the claim. -/
theorem redelivery_iff (hs : lifecycle.Reach s) (happlied : id ∈ s.applied) :
    ∃ r c, s.db.submissions.get id = some r ∧ s.db.claims.get r.claimId = some c ∧
      (SameLocks s.db (s.apply (.onValidationPassed id)).db ↔
        r.validationStatus ≠ .validated ∨ c.status.terminal = true ∨ c.status = .underReview ∨
          s.db.unfinishedCleanups r.claimId ≠ ∅) := by
  have hpointed := pointed_inductive.reach hs
  obtain ⟨r, hr, _, hlock⟩ := appliedSound_reach hs id happlied
  obtain ⟨c, _, _, hc, _⟩ := hpointed.newest id r hr
  refine ⟨r, c, hr, hc, ?_⟩
  constructor
  · intro hsame
    by_contra hbusy
    simp only [not_or, ne_eq, not_not, Bool.not_eq_true] at hbusy
    obtain ⟨hvalidated, hterminal, hreview, hguard⟩ := hbusy
    have hactive := active_of_not_terminal hterminal
    obtain ⟨c', hc', hstatus, _⟩ := enters_review hpointed hr hc hvalidated hactive hguard
      fun hnone => absurd hnone (hlock c hc hactive)
    rw [hsame.claims, hc] at hc'
    cases hc'
    exact hreview hstatus
  · exact redelivery_same hpointed (lockSound_inductive.reach hs _ _ hc) hr hc

end Redelivery

def lockedOnce : List Op :=
  .claim 7 1 1 (some 1) :: submits 1 [1] ++ [.startValidation 1 1,
    .finishValidation 1 passing none, .onValidationPassed 1]

theorem redelivery_iff_lockedOnce :
    let s := (opening 50 (by decide)).run lockedOnce
    1 ∈ s.applied ∧ ∃ r c, s.db.submissions.get 1 = some r ∧
      s.db.claims.get r.claimId = some c ∧
      (SameLocks s.db (s.apply (.onValidationPassed 1)).db ↔
        r.validationStatus ≠ .validated ∨ c.status.terminal = true ∨ c.status = .underReview ∨
          s.db.unfinishedCleanups r.claimId ≠ ∅) :=
  have happlied : 1 ∈ ((opening 50 (by decide)).run lockedOnce).applied := by decide +kernel
  ⟨happlied, redelivery_iff (reach_opening 50 (by decide) lockedOnce) happlied⟩

def returnedOnce : List Op := lockedOnce ++ [.requireRevision ⟨9, .teacher⟩ 1 none]

/-- After a return for revision the redelivered lock step takes the claim back into review. -/
theorem redelivery_reenters_review :
    ¬ ∀ s, lifecycle.Reach s → ∀ id ∈ s.applied,
      SameLocks s.db (s.apply (.onValidationPassed id)).db := by
  intro h
  have happlied : 1 ∈ ((opening 50 (by decide)).run returnedOnce).applied := by decide +kernel
  have hsame := h _ (reach_opening 50 (by decide) returnedOnce) 1 happlied
  have hstatus := congrArg (fun t : Table ClaimId AssignmentClaim =>
    (t.get 1).map AssignmentClaim.status) hsame.claims
  have hbefore : (((opening 50 (by decide)).run returnedOnce).db.claims.get 1).map
      AssignmentClaim.status = some .revisionRequired := by decide +kernel
  have hafter : ((((opening 50 (by decide)).run returnedOnce).apply
      (.onValidationPassed 1)).db.claims.get 1).map AssignmentClaim.status =
        some .underReview := by decide +kernel
  rw [hbefore, hafter] at hstatus
  cases hstatus

end CampusQuest.Lifecycle
