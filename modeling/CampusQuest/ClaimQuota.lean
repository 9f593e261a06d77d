import CampusQuest.ClaimInvariants

/-!
The quota of actionable claims. It is checked when a claim is taken, under the lock of the
user row. A failed validation, a return for revision and an invalidated lock make a claim
actionable again and ask nobody, so the quota holds along a run exactly while each of them
finds room for the claim that it returns.
-/

namespace CampusQuest.Lifecycle

open Tables Runs Guards

/-- The claims of a student that still need the student's action. -/
def Db.actionableClaims (db : Db) (user : UserId) : ℕ :=
  db.claims.count fun _ c => c.userId = user ∧ c.status.actionable = true

/-- Every student holds at most three claims that need action. -/
def Db.QuotaKept (db : Db) : Prop := ∀ user, db.actionableClaims user ≤ maxActiveClaims

/-- The claim that an operation makes actionable again, as the tables are before it. -/
def State.Returns (s : State) : Op → ClaimId → AssignmentClaim → Prop
  | .finishValidation run report _, k, c => report.verdict = .validationFailed ∧
    ∃ row sub, s.db.runs.get run = some row ∧ row.finishedAt = none ∧
      s.db.submissions.get row.submissionId = some sub ∧ sub.claimId = k ∧
      s.db.claims.get k = some c ∧ c.latestSubmissionId = some row.submissionId ∧
      c.status = .validating
  | .requireRevision actor id _, k, c => c.status.actionable = false ∧
    ∃ row, Reviewable s.db actor id row c ∧ row.claimId = k
  | .invalidate actor id reason, k, c => strippedReason reason ≠ [] ∧
    c.status.actionable = false ∧ c.rewardLockStatus = .provisional ∧
    ∃ row, Reviewable s.db actor id row c ∧ row.claimId = k
  | _, _, _ => False

/-- The condition on an operation: whoever gets a claim back holds less than the quota. -/
def State.RoomToReturn (s : State) (op : Op) : Prop :=
  ∀ k c, s.Returns op k c → s.db.actionableClaims c.userId < maxActiveClaims

section Counting

/-- A row that did not count is replaced by one that may. -/
theorem count_put_replace {κ ρ : Type*} [DecidableEq κ] (p : κ → ρ → Prop)
    [∀ k r, Decidable (p k r)] {t : Table κ ρ} {k : κ} {r r' : ρ} (hget : t.get k = some r)
    (hnot : ¬ p k r) : (t.put k r').count p = t.count p + if p k r' then 1 else 0 := by
  have hreplace := Table.total_put_replace r' (fun k r => if p k r then (1 : ℕ) else 0) hget
  rw [if_neg hnot] at hreplace
  exact hreplace

theorem quotaUsed_eq (db : Db) (user : UserId) : db.quotaUsed user = db.actionableClaims user := by
  unfold Db.quotaUsed Db.actionableClaims Table.count
  refine Table.total_congr fun k c _ => ?_
  have hiff : (c.userId = user ∧ c.status.active = true ∧ c.status.quotaOccupying = true) ↔
      (c.userId = user ∧ c.status.actionable = true) := by
    constructor
    · rintro ⟨huser, _, hactionable⟩
      exact ⟨huser, hactionable⟩
    · rintro ⟨huser, hactionable⟩
      exact ⟨huser, ClaimStatus.active_of_actionable hactionable, hactionable⟩
  simp only [hiff]

/-- No student gets more claims to act on when each of them was there to act on before. -/
theorem actionableClaims_le {db db' : Db} (h : ∀ k c', db'.claims.get k = some c' →
      c'.status.actionable = true → ∃ c, db.claims.get k = some c ∧ c.userId = c'.userId ∧
        c.status.actionable = true) (user : UserId) :
    db'.actionableClaims user ≤ db.actionableClaims user := by
  refine Table.count_le_of_get _ fun k c' hget hc' => ?_
  obtain ⟨c, hc, huser, hactionable⟩ := h k c' hget hc'.2
  exact ⟨c, hc, huser.trans hc'.1, hactionable⟩

/-- The count of a student follows a claim that replaces one that needed no action. -/
theorem actionableClaims_returned {db db' : Db} {k : ClaimId} {c c' : AssignmentClaim}
    (hclaims : db'.claims = db.claims.put k c') (hget : db.claims.get k = some c)
    (hquiet : c.status.actionable = false) (huser : c'.userId = c.userId)
    (hactionable : c'.status.actionable = true) (user : UserId) :
    db'.actionableClaims user = db.actionableClaims user + if c.userId = user then 1 else 0 := by
  unfold Db.actionableClaims
  rw [hclaims, count_put_replace _ hget (by simp [hquiet])]
  simp [huser, hactionable]

end Counting

section Steps

variable {s : State} {op : Op} {k : ClaimId} {c c' : AssignmentClaim}

/-- The claim that is returned is there and needs no action before. -/
theorem State.Returns.held (h : s.Returns op k c) :
    s.db.claims.get k = some c ∧ c.status.actionable = false := by
  cases op with
  | finishValidation run report detected =>
    obtain ⟨_, row, sub, _, _, _, _, hget, _, hstatus⟩ := h
    exact ⟨hget, by rw [hstatus]; rfl⟩
  | requireRevision actor id note =>
    obtain ⟨hquiet, row, hreviewable, rfl⟩ := h
    exact ⟨hreviewable.held, hquiet⟩
  | invalidate actor id reason =>
    obtain ⟨_, hquiet, _, row, hreviewable, rfl⟩ := h
    exact ⟨hreviewable.held, hquiet⟩
  | _ => exact h.elim

/-- An operation that returns a claim commits, and it writes this claim only. -/
theorem State.Returns.commits (h : s.Returns op k c) :
    ∃ c', (s.apply op).db.claims = s.db.claims.put k c' ∧ c'.userId = c.userId ∧
      c'.status.actionable = true := by
  cases op with
  | finishValidation run report detected =>
    obtain ⟨hfailed, row, sub, hrun, hopen, hsub, rfl, hget, hlatest, hstatus⟩ := h
    have hunfinished : s.unfinished run = true := by
      unfold State.unfinished
      rw [hrun]
      simp [hopen]
    refine ⟨c.withStatus (if c.revisionDeadlineAt.isSome then .revisionRequired else .claimed),
      ?_, rfl, ?_⟩
    · change (if s.unfinished run = true then
        s.commit (finishValidation s.db s.now run report detected) else s).db.claims = _
      rw [if_pos hunfinished, finishValidation_ok.mpr ⟨row, sub, hrun, hsub, rfl, rfl⟩,
        if_pos hfailed]
      rw [restoreActionableClaim_some c]
      swap
      · exact hget
      rw [if_neg (not_not_intro hlatest), if_neg (not_not_intro hstatus)]
      rfl
    · change (if c.revisionDeadlineAt.isSome then ClaimStatus.revisionRequired
        else ClaimStatus.claimed).actionable = true
      split <;> rfl
  | requireRevision actor id note =>
    obtain ⟨_, row, hreviewable, rfl⟩ := h
    refine ⟨c.returned s.now, ?_, rfl, rfl⟩
    change (s.commit (requireRevision s.db s.now actor id note)).db.claims = _
    rw [requireRevision_ok.mpr ⟨row, c, hreviewable, rfl, rfl⟩]
    rfl
  | invalidate actor id reason =>
    obtain ⟨hreason, _, hlock, row, hreviewable, rfl⟩ := h
    refine ⟨c.unlock.returned s.now, ?_, rfl, rfl⟩
    change (s.commit (invalidateRewardLock s.db s.now actor id reason)).db.claims = _
    have hok : ∃ db', invalidateRewardLock s.db s.now actor id reason =
        .ok (c.unlock.returned s.now, db') ∧
          db'.claims = s.db.claims.put row.claimId (c.unlock.returned s.now) := by
      unfold invalidateRewardLock
      refine ⟨_, ensure_bind_ok.mpr ⟨hreason, bind_ok.mpr ⟨(row, c),
        lockedReviewable_ok.mpr hreviewable, ensure_bind_ok.mpr ⟨hlock, rfl⟩⟩⟩, rfl⟩
    obtain ⟨db', hok, hclaims⟩ := hok
    rw [hok]
    exact hclaims
  | _ => exact h.elim

/-- A claim is taken only below the quota. -/
theorem claimRandomAssignment_quota {db db' : Db} {now : Instant} {user : UserId}
    {taskId : TaskId} {id : ClaimId} {choice : Option AssignmentId} {claim : AssignmentClaim}
    (h : claimRandomAssignment db now user taskId id choice = .ok (claim, db')) :
    db.quotaUsed user < maxActiveClaims := by
  unfold claimRandomAssignment at h
  obtain ⟨_, _, h⟩ := bind_ok.mp h
  obtain ⟨task, _, h⟩ := orRefuse_bind_ok.mp h
  obtain ⟨_, _, h⟩ := bind_ok.mp h
  obtain ⟨hquota, h⟩ := ensure_bind_ok.mp h
  exact hquota

theorem returns_of_finish {run : RunId} {report : ValidationReport} {detected : Option FileType}
    (hget : s.db.claims.get k = some c) (hquiet : c.status.actionable = false)
    (hget' : (s.apply (.finishValidation run report detected)).db.claims.get k = some c')
    (hactionable : c'.status.actionable = true) :
    s.Returns (.finishValidation run report detected) k c := by
  have heffect := apply_effect s (.finishValidation run report detected)
  generalize (s.apply (.finishValidation run report detected)).db = db' at heffect hget'
  have hmoved : ¬ s.db.claims.get k = some c' := by
    intro hsame
    rw [hget] at hsame
    cases hsame
    rw [hquiet] at hactionable
    cases hactionable
  cases heffect with
  | core _ hcore =>
    rw [hcore.claims] at hget'
    exact absurd hget' hmoved
  | ended _ _ _ _ _ hends => cases hends
  | finished => exact absurd hget' hmoved
  | finishedRestoring _ _ _ row sub claim status hrun hopen hsub hfailed hclaim hlatest hvalidating =>
    rcases Table.get_put_eq_some hget' with ⟨rfl, _⟩ | ⟨_, hsame⟩
    · rw [hclaim] at hget
      cases hget
      exact ⟨hfailed, row, sub, hrun, hopen, hsub, rfl, hclaim, hlatest, hvalidating⟩
    · exact absurd hsame hmoved

/-- A claim that needed no action and now does was returned by the operation. -/
theorem ClaimMove.returns (h : ClaimMove s (s.apply op).db op k c c')
    (hget : s.db.claims.get k = some c) (hget' : (s.apply op).db.claims.get k = some c')
    (hquiet : c.status.actionable = false) (hactionable : c'.status.actionable = true) :
    s.Returns op k c := by
  cases h with
  | same =>
    rw [hquiet] at hactionable
    cases hactionable
  | ended _ _ _ status t _ hbefore =>
    rw [hquiet] at hbefore
    cases hbefore
  | finalized =>
    have hactionable : c.status.actionable = true := hactionable
    rw [hquiet] at hactionable
    cases hactionable
  | validating => cases hactionable
  | restored run report detected => exact returns_of_finish hget hquiet hget' hactionable
  | locked id row _ locked rows _ _ hactive hlocked =>
    rw [locked_status hactive hlocked] at hactionable
    cases hactionable
  | returned actor id note row _ hreviewable => exact ⟨hquiet, row, hreviewable, rfl⟩
  | unlocked actor id reason row _ hreviewable hlock =>
    refine ⟨fun hreason => ?_, hquiet, hlock, row, hreviewable, rfl⟩
    -- An invalidation without a reason is refused and leaves the claim as it is.
    have hrefused : s.apply (.invalidate actor id reason) = s := by
      change s.commit (invalidateRewardLock s.db s.now actor id reason) = s
      unfold invalidateRewardLock
      rw [hreason]
      rfl
    rw [hrefused, hget] at hget'
    have hstatus := congrArg AssignmentClaim.status (Option.some.inj hget')
    rw [← hstatus, hquiet] at hactionable
    cases hactionable
  | approved => cases hactionable

end Steps

section Quota

variable {s : State} {op : Op}

/-- A claim operation adds one claim to the student, who was below the quota. -/
theorem quotaKept_claim {user : UserId} {taskId : TaskId} {id : ClaimId}
    {choice : Option AssignmentId} (h : s.db.QuotaKept) :
    (s.apply (.claim user taskId id choice)).db.QuotaKept := by
  change (s.commit (claimRandomAssignment s.db s.now user taskId id choice)).db.QuotaKept
  cases hanswer : claimRandomAssignment s.db s.now user taskId id choice with
  | error e => exact h
  | ok result =>
    obtain ⟨claim, db'⟩ := result
    have hquota := claimRandomAssignment_quota hanswer
    rw [quotaUsed_eq] at hquota
    obtain ⟨a, row, task, deadlines, _, _, _, _, _, _, hfresh, rfl, rfl⟩ :=
      claimRandomAssignment_ok hanswer
    intro other
    have hput := Table.count_put_le
      (fun _ c => c.userId = other ∧ c.status.actionable = true) s.db.claims id
        (newClaim a taskId task user s.now deadlines)
    change (s.db.claims.put id _).count _ ≤ _
    split at hput
    next hcounts =>
      obtain ⟨rfl, _⟩ := hcounts
      change _ ≤ s.db.actionableClaims _ + 1 at hput
      exact hput.trans hquota
    next => exact hput.trans (h other)

/-- An operation that returns no claim keeps the quota. -/
theorem quotaKept_quiet (h : s.db.QuotaKept) (hquiet : ∀ k c, ¬ s.Returns op k c) :
    (s.apply op).db.QuotaKept := by
  by_cases hclaims : ∃ user taskId id choice, op = .claim user taskId id choice
  · obtain ⟨user, taskId, id, choice, rfl⟩ := hclaims
    exact quotaKept_claim h
  · intro user
    refine (actionableClaims_le (fun k c' hget' hactionable => ?_) user).trans (h user)
    rcases claim_step hget' with hmade | ⟨c, hget, hmove⟩
    · cases hmade with
      | claimed user taskId id choice => exact absurd ⟨user, taskId, k, choice, rfl⟩ hclaims
    · refine ⟨c, hget, hmove.sameClaim.userId.symm, ?_⟩
      by_contra hnot
      exact hquiet k c (hmove.returns hget hget' (by simpa using hnot) hactionable)

/-- One operation keeps the quota exactly when it has room for the claim it returns. -/
theorem quotaKept_step (h : s.db.QuotaKept) :
    (s.apply op).db.QuotaKept ↔ s.RoomToReturn op := by
  constructor
  · intro hkept k c hreturns
    obtain ⟨hget, hquiet⟩ := hreturns.held
    obtain ⟨c', hclaims, huser, hactionable⟩ := hreturns.commits
    have hcount := actionableClaims_returned hclaims hget hquiet huser hactionable c.userId
    rw [if_pos rfl] at hcount
    have hle := hkept c.userId
    omega
  · intro hroom
    by_cases hreturns : ∃ k c, s.Returns op k c
    · obtain ⟨k, c, hreturns⟩ := hreturns
      obtain ⟨hget, hquiet⟩ := hreturns.held
      obtain ⟨c', hclaims, huser, hactionable⟩ := hreturns.commits
      intro user
      rw [actionableClaims_returned hclaims hget hquiet huser hactionable user]
      split
      next hown =>
        have hlt := hroom k c hreturns
        rw [hown] at hlt
        omega
      next => exact h user
    · push Not at hreturns
      exact quotaKept_quiet h hreturns

/-- A run keeps every student within the quota exactly while each step that returns a claim
finds its student below it. -/
theorem quota_kept_along {s s' : State} {l : List (State × Op × State)} (hs : lifecycle.init s)
    (hrun : lifecycle.Run s l s') :
    (∀ e ∈ l, e.2.2.db.QuotaKept) ↔ ∀ e ∈ l, e.1.RoomToReturn e.2.1 := by
  have hfirst : s.db.QuotaKept := by
    intro user
    have hempty : s.db.actionableClaims user = 0 := by
      unfold Db.actionableClaims
      rw [hs.claims]
      rfl
    omega
  refine hrun.keeps_iff (P := fun s => s.db.QuotaKept) (fun s op s' _ h hstep => ?_)
    (.init hs) hfirst
  cases hstep
  exact quotaKept_step h

/-- A claim is submitted and is being validated while three further claims are taken. -/
def validatingFirst : List Op :=
  .claim 7 1 1 (some 1) :: submits 1 [1] ++ [.startValidation 1 1] ++
    [2, 3, 4].flatMap fun i => [.task i (weekTask 50 base_pos), .importAssignment (i + 1) i,
      .claim 7 i i (some (i + 1))]

theorem quota_kept_taking :
    let s := opening 50 (by decide)
    (s.run validatingFirst).db.actionableClaims 7 = 3 ∧
      ((∀ e ∈ s.trace validatingFirst, e.2.2.db.QuotaKept) ↔
        ∀ e ∈ s.trace validatingFirst, e.1.RoomToReturn e.2.1) :=
  ⟨by decide +kernel, quota_kept_along (opening_initial 50 (by decide)) (run_trace _ _)⟩

/-- The validation fails, and the student holds four claims that need action. -/
theorem quota_exceeded : ¬ ∀ s, lifecycle.Reach s → s.db.QuotaKept := by
  intro h
  have hkept := h _ (reach_opening 50 (by decide)
    (validatingFirst ++ [.finishValidation 1 failing none])) 7
  have hfour : ((opening 50 (by decide)).run
      (validatingFirst ++ [.finishValidation 1 failing none])).db.actionableClaims 7 = 4 := by
    decide +kernel
  rw [hfour] at hkept
  exact absurd hkept (by decide)

end Quota

end CampusQuest.Lifecycle
