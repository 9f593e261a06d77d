import CampusQuest.ClaimInvariants

/-!
The first lock and the grace deadline. A review may return a claim whose lock step has not
run yet, and its new window may then reach past the grace deadline. While no review does
that, a claim without a lock has all its submissions, and its whole window, before the grace
deadline, and the first lock never finds the ladder closed.
-/

namespace CampusQuest.Lifecycle

open Tables Runs System Guards

/-- A return for revision keeps the window of a claim without a lock inside the grace
period. -/
def KeepsFirstWindow (s : State) : Op → Prop
  | .requireRevision actor id _ => ∀ r c, Reviewable s.db actor id r c →
      c.rewardLockStatus ≠ .none ∨ s.now + revisionWindow ≤ c.graceDeadlineAt
  | _ => True

/-- The window of a claim and its submissions lie before the grace deadline. -/
structure InGrace (s : State) (k : ClaimId) (c : AssignmentClaim) : Prop where
  window : ∀ d, c.revisionDeadlineAt = some d → d ≤ c.graceDeadlineAt
  submitted : ∀ id r, s.db.submissions.get id = some r → r.claimId = k →
    r.submittedAt < c.graceDeadlineAt

def FirstWindows (s : State) : Prop :=
  ∀ k c, s.db.claims.get k = some c → c.rewardLockStatus = .none → InGrace s k c

section Steps

variable {s : State} {op : Op} {k : ClaimId} {c c' : AssignmentClaim}

/-- An upload into an open window comes before a deadline of the claim. -/
theorem submitted_in_grace {now : Instant} (hopen : submissionWindowOpen c now = true)
    (hwindow : ∀ d, c.revisionDeadlineAt = some d → d ≤ c.graceDeadlineAt) :
    now < c.graceDeadlineAt := by
  unfold submissionWindowOpen at hopen
  by_cases hrevision : c.status = .revisionRequired
  · simp only [if_pos hrevision] at hopen
    cases hdeadline : c.revisionDeadlineAt with
    | none =>
      rw [hdeadline] at hopen
      cases hopen
    | some d =>
      rw [hdeadline] at hopen
      exact lt_of_lt_of_le (of_decide_eq_true hopen) (hwindow d hdeadline)
  · simp only [if_neg hrevision] at hopen
    exact of_decide_eq_true hopen

/-- Only a review moves the revision deadline, and under the guard not past the grace
deadline. -/
theorem ClaimMove.window {db' : Db} (hmove : ClaimMove s db' op k c c')
    (hguard : KeepsFirstWindow s op) (hnone : c'.rewardLockStatus = .none)
    (hwindow : ∀ d, c.revisionDeadlineAt = some d → d ≤ c.graceDeadlineAt) :
    ∀ d, c'.revisionDeadlineAt = some d → d ≤ c'.graceDeadlineAt := by
  cases hmove with
  | same | ended | finalized | validating | restored => exact hwindow
  | locked id row _ locked rows _ _ hactive hlocked _ =>
    rw [bumpLatest_rewardLockStatus, entered_rewardLockStatus] at hnone
    rcases establishLock_cases hlocked with ⟨hunlocked, rfl⟩ | ⟨_, _, rfl⟩
    · rw [hnone] at hunlocked
      cases hunlocked
    · cases hnone
  | returned actor id note row _ hreviewable =>
    intro d hd
    have hlock : c.rewardLockStatus = .none := hnone
    have hdeadline : d = revisionDeadline c s.now := by
      cases hd
      rfl
    have hday : s.now + revisionWindow ≤ c.graceDeadlineAt := by
      rcases hguard row c hreviewable with hlocked | hday
      · exact absurd hlock hlocked
      · exact hday
    rw [hdeadline]
    change max (c.revisionDeadlineAt.getD c.graceDeadlineAt) (s.now + revisionWindow) ≤
      c.graceDeadlineAt
    refine max_le ?_ hday
    cases hold : c.revisionDeadlineAt with
    | none => exact le_rfl
    | some d' => exact hwindow d' hold
  | unlocked => cases hnone
  | approved => cases hnone

theorem firstWindows_inductive :
    (lifecycle.guarded KeepsFirstWindow).Inductive fun s => Pointed s ∧ FirstWindows s := by
  constructor
  · intro s hinit
    refine ⟨pointed_inductive.init s hinit, fun k c hc => ?_⟩
    rw [hinit.claims, Table.get_empty] at hc
    cases hc
  · rintro s op s' ⟨hpointed, hs⟩ ⟨hstep, hguard⟩
    refine ⟨pointed_inductive.step s op s' hpointed hstep, fun k c' hc' hnone => ?_⟩
    have hs' : s' = s.apply op := hstep
    subst hs'
    rcases claim_step hc' with hmade | ⟨c, hc, hmove⟩
    · cases hmade with
      | claimed user taskId _ choice a row task deadlines _ _ _ _ hfresh =>
        constructor
        · intro d hd
          cases hd
        · -- A submission of the new claim would be one of a claim that was there before.
          intro id r' hr' hk
          rcases submission_step hr' with hsub | ⟨r, hr, hsub⟩
          · cases hsub
          · obtain ⟨c, _, _, hc, _⟩ := hpointed.newest id r hr
            rw [← hsub.sameSubmission.claimId, hk, hfresh] at hc
            cases hc
    · have hlock : c.rewardLockStatus = .none := by
        by_contra hlock
        exact hmove.lock_ne_none hlock hnone
      have hgrace := hs k c hc hlock
      refine ⟨hmove.window hguard hnone hgrace.window, fun id r' hr' hk => ?_⟩
      rw [hmove.sameClaim.graceDeadlineAt]
      rcases submission_step hr' with hmade | ⟨r, hr, hsub⟩
      · cases hmade with
        | finalized _ _ _ _ intent claim _ _ _ hclaim _ hopen =>
          have hk : intent.claimId = k := hk
          rw [hk, hc] at hclaim
          cases hclaim
          exact submitted_in_grace hopen hgrace.window
      · rw [hsub.sameSubmission.submittedAt]
        exact hgrace.submitted id r hr (hsub.sameSubmission.claimId.symm.trans hk)

/-- While no review returns a claim without a lock past its grace deadline, the lock service
never finds a corrupt window, and a submission from the grace deadline on belongs to a claim
that has had a lock. -/
theorem first_lock_in_grace (hs : (lifecycle.guarded KeepsFirstWindow).Reach s) :
    (∀ id i t g, onValidationPassed s.db id ≠ .error (.rewardWindowInconsistent i t g)) ∧
      ∀ id r c, s.db.submissions.get id = some r → s.db.claims.get r.claimId = some c →
        c.graceDeadlineAt ≤ r.submittedAt → c.rewardLockStatus ≠ .none := by
  have hwindows := (firstWindows_inductive.reach hs).2
  have hlocked : ∀ id r c, s.db.submissions.get id = some r →
      s.db.claims.get r.claimId = some c → c.graceDeadlineAt ≤ r.submittedAt →
        c.rewardLockStatus ≠ .none := by
    intro id r c hr hc hlate hnone
    exact absurd ((hwindows r.claimId c hc hnone).submitted id r hr rfl) (not_lt.mpr hlate)
  refine ⟨fun id i t g hrefused => ?_, hlocked⟩
  obtain ⟨r, c, hr, hc, hnone, hlate⟩ := onValidationPassed_inconsistent hrefused
  exact hlocked id r c hr hc hlate hnone

end Steps

/-- A decision procedure for the condition, blind to whether the review commits. -/
def State.firstWindowKept (s : State) : Op → Bool
  | .requireRevision _ id _ => (s.db.submissions.get id).all fun r =>
      (s.db.claims.get r.claimId).all fun c =>
        c.rewardLockStatus ≠ .none || s.now + revisionWindow ≤ c.graceDeadlineAt
  | _ => true

theorem keepsFirstWindow_of_kept {s : State} {op : Op} (h : s.firstWindowKept op = true) :
    KeepsFirstWindow s op := by
  cases op with
  | requireRevision actor id note =>
    intro r c hreviewable
    have hkept : (s.db.submissions.get id).all (fun r => (s.db.claims.get r.claimId).all fun c =>
      c.rewardLockStatus ≠ .none || s.now + revisionWindow ≤ c.graceDeadlineAt) = true := h
    rw [hreviewable.found, Option.all_some, hreviewable.held, Option.all_some] at hkept
    simpa using hkept
  | _ => trivial

/-- A locked submission, returned in its last hours, and the next one past the grace
deadline. -/
def returnedLocked : List Op :=
  .claim 7 1 1 (some 1) :: .tick (hours 190) :: submits 1 [1] ++ [.startValidation 1 1,
    .finishValidation 1 passing none, .onValidationPassed 1, .requireRevision ⟨9, .teacher⟩ 1 none,
    .tick (hours 200)] ++ submits 1 [2] ++ [.startValidation 2 2, .finishValidation 2 passing none]

theorem first_lock_in_grace_returned :
    let s := (opening 50 (by decide)).run returnedLocked
    ((s.db.submissions.get 2).map fun r => decide (hours 192 ≤ r.submittedAt)) = some true ∧
      ∀ id i t g, onValidationPassed s.db id ≠ .error (.rewardWindowInconsistent i t g) :=
  have hkept : ∀ e ∈ (opening 50 (by decide)).trace returnedLocked,
      e.1.firstWindowKept e.2.1 = true := by
    rw [← List.all_eq_true]
    decide +kernel
  have hreach := guarded_run (.init (opening_initial 50 (by decide))) returnedLocked
    fun e he => keepsFirstWindow_of_kept (hkept e he)
  ⟨by decide +kernel, (first_lock_in_grace hreach).1⟩

/-- A submission two hours before the grace deadline whose lock step never runs, returned by
a review, and the next one eight hours after the deadline. -/
def returnedUnlocked : List Op :=
  .claim 7 1 1 (some 1) :: .tick (hours 190) :: submits 1 [1] ++ [.startValidation 1 1,
    .finishValidation 1 passing none, .requireRevision ⟨9, .teacher⟩ 1 none, .tick (hours 200)] ++
    submits 1 [2] ++ [.startValidation 2 2, .finishValidation 2 passing none]

theorem first_lock_past_grace :
    ¬ ∀ s, lifecycle.Reach s → ∀ id i t g,
      onValidationPassed s.db id ≠ .error (.rewardWindowInconsistent i t g) := by
  intro h
  have hrefused : refusal (onValidationPassed ((opening 50 (by decide)).run returnedUnlocked).db 2) =
      some (.rewardWindowInconsistent 2 (hours 200) (hours 192)) := by decide +kernel
  exact h _ (reach_opening 50 (by decide) returnedUnlocked) 2 2 (hours 200) (hours 192)
    (refusal_eq_some.mp hrefused)

end CampusQuest.Lifecycle
