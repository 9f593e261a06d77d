import CampusQuest.Occupancy

/-!
Paying a locked reward. The ladder rounds down, so a small base reward on a low rung locks
zero points, and the ledger takes positive amounts only: past its gates an approval answers
exactly when base times tier makes a whole point.
-/

namespace CampusQuest.Lifecycle

open Tables Runs System

section Payment

variable {s : State} {k : ClaimId} {c : AssignmentClaim}

theorem assignment_of_active (hs : lifecycle.Reach s) (hc : s.db.claims.get k = some c)
    (hactive : c.status.active = true) : s.db.assignments.get c.assignmentId ≠ none := by
  have hheld := holder_eq_some.mpr ⟨c, hc, hactive, rfl⟩
  obtain ⟨row, hrow, _⟩ := phase_eq_taken.mp ((exclusive_reach hs).held _ _ _ hheld)
  rw [hrow]
  simp

/-- An approval that passes its gates pays a rung of the ladder, and it answers exactly when
that rung is worth a whole point. -/
theorem approval_pays_iff (hs : lifecycle.Reach s) {actor : Actor} {id : SubmissionId}
    {r : Submission} (hreviewable : Reviewable s.db actor id r c)
    (hlock : c.rewardLockStatus = .provisional) :
    ∃ fraction : RewardFraction, c.rewardTierLocked = some fraction.tierPercent ∧
      c.lockedRewardPoints = some (rewardPoints c.baseRewardPointsSnapshot fraction) ∧
      ((∃ answer, approveSubmission s.db s.now actor id = .ok answer) ↔
        100 ≤ c.baseRewardPointsSnapshot * fraction.tierPercent) := by
  obtain ⟨fraction, htier, hpoints⟩ :=
    (lockSound_inductive.reach hs _ _ hreviewable.held).ladder hlock
  refine ⟨fraction, htier, hpoints, ?_⟩
  have hassignment := assignment_of_active hs hreviewable.held hreviewable.active
  rw [approveSubmission_isOk_iff hreviewable hlock htier hpoints hassignment,
    rewardPoints_pos_iff]

end Payment

/-- A submission thirteen hours after the deadline, locked and under review. -/
def lateSubmission : List Op :=
  .claim 7 1 1 (some 1) :: .tick (hours (24 * 7 + 13)) :: submits 1 [1] ++ [.startValidation 1 1,
    .finishValidation 1 passing none, .onValidationPassed 1]

def Db.approvable (db : Db) (actor : Actor) (id : SubmissionId) : Bool :=
  (db.submissions.get id).any fun r => (db.claims.get r.claimId).any fun c =>
    c.status = .underReview && r.validationStatus = .validated && c.latestSubmissionId = some id &&
      reviewer db c.taskId actor && c.rewardLockStatus = .provisional

theorem reviewable_of_approvable {db : Db} {actor : Actor} {id : SubmissionId}
    (h : db.approvable actor id = true) : ∃ r c, Reviewable db actor id r c ∧
      c.status = .underReview ∧ c.rewardLockStatus = .provisional := by
  unfold Db.approvable at h
  rw [Option.any_eq_true] at h
  obtain ⟨r, hr, h⟩ := h
  rw [Option.any_eq_true] at h
  obtain ⟨c, hc, h⟩ := h
  simp only [Bool.and_eq_true, decide_eq_true_eq] at h
  obtain ⟨⟨⟨⟨hreview, hvalidated⟩, hlatest⟩, hpermitted⟩, hlock⟩ := h
  have hactive : c.status.active = true := by rw [hreview]; rfl
  exact ⟨r, c, ⟨hr, hc, hactive, hvalidated, hlatest, hpermitted⟩, hreview, hlock⟩

theorem approval_pays_iff_five :
    ∃ r c, Reviewable ((opening 5 (by decide)).run lateSubmission).db ⟨9, .teacher⟩ 1 r c ∧
      c.rewardLockStatus = .provisional ∧ ∃ fraction : RewardFraction,
        c.rewardTierLocked = some fraction.tierPercent ∧
        c.lockedRewardPoints = some (rewardPoints c.baseRewardPointsSnapshot fraction) ∧
        ((∃ answer, approveSubmission ((opening 5 (by decide)).run lateSubmission).db
          ((opening 5 (by decide)).run lateSubmission).now ⟨9, .teacher⟩ 1 = .ok answer) ↔
            100 ≤ c.baseRewardPointsSnapshot * fraction.tierPercent) :=
  have happrovable : ((opening 5 (by decide)).run lateSubmission).db.approvable ⟨9, .teacher⟩ 1 =
      true := by decide +kernel
  have ⟨r, c, hreviewable, _, hlock⟩ := reviewable_of_approvable happrovable
  ⟨r, c, hreviewable, hlock, approval_pays_iff (reach_opening 5 (by decide) lateSubmission)
    hreviewable hlock⟩

/-- A base reward of one on the lowest rung locks no points, and its approval fails. -/
theorem small_reward_not_payable :
    ¬ ∀ s, lifecycle.Reach s → ∀ actor id r c, Reviewable s.db actor id r c →
      c.status = .underReview → c.rewardLockStatus = .provisional →
        ∃ answer, approveSubmission s.db s.now actor id = .ok answer := by
  intro h
  have happrovable : ((opening 1 (by decide)).run lateSubmission).db.approvable ⟨9, .teacher⟩ 1 =
      true := by decide +kernel
  obtain ⟨r, c, hreviewable, hreview, hlock⟩ := reviewable_of_approvable happrovable
  obtain ⟨answer, hanswer⟩ := h _ (reach_opening 1 (by decide) lateSubmission) ⟨9, .teacher⟩ 1 r c
    hreviewable hreview hlock
  have hrefused : (approveSubmission ((opening 1 (by decide)).run lateSubmission).db
      ((opening 1 (by decide)).run lateSubmission).now ⟨9, .teacher⟩ 1).isOk = false := by
    decide +kernel
  rw [hanswer] at hrefused
  cases hrefused

end CampusQuest.Lifecycle
