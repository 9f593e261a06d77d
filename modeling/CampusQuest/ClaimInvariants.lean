import CampusQuest.Moves

/-!
Invariants of every reachable state of the lifecycle: a claim's latest submission is its own
and its newest, its lock fits its status and the ladder, and a lock step that has answered
leaves the lock established. What no operation changes about a row stands first.
-/

namespace CampusQuest.Lifecycle

open Tables Runs System

section Steps

variable {s : State} {op : Op} {k : ClaimId} {id : SubmissionId}

/-- A claim after an operation was made by it or is a move of the claim before it. -/
theorem claim_step {c' : AssignmentClaim} (h : (s.apply op).db.claims.get k = some c') :
    ClaimMade s op k c' ∨
      ∃ c, s.db.claims.get k = some c ∧ ClaimMove s (s.apply op).db op k c c' := by
  cases hold : s.db.claims.get k with
  | none => exact Or.inl ((apply_effect s op).claim_made hold h)
  | some c =>
    obtain ⟨c₁, hc₁, hmove⟩ := (apply_effect s op).claim_move hold
    rw [h] at hc₁
    cases hc₁
    exact Or.inr ⟨c, rfl, hmove⟩

theorem submission_step {r' : Submission} (h : (s.apply op).db.submissions.get id = some r') :
    SubmissionMade s (s.apply op).db op id r' ∨
      ∃ r, s.db.submissions.get id = some r ∧ SubmissionMove s op id r r' := by
  cases hold : s.db.submissions.get id with
  | none => exact Or.inl ((apply_effect s op).submission_made hold h)
  | some r =>
    obtain ⟨r₁, hr₁, hmove⟩ := (apply_effect s op).submission_move hold
    rw [h] at hr₁
    cases hr₁
    exact Or.inr ⟨r, rfl, hmove⟩

theorem intent_step {i : IntentId} {x' : UploadIntent}
    (h : (s.apply op).db.intents.get i = some x') :
    IntentMade s op i x' ∨
      ∃ x, s.db.intents.get i = some x ∧ IntentMove s (s.apply op).db op i x x' := by
  cases hold : s.db.intents.get i with
  | none => exact Or.inl ((apply_effect s op).intent_made hold h)
  | some x =>
    obtain ⟨x₁, hx₁, hmove⟩ := (apply_effect s op).intent_move hold
    rw [h] at hx₁
    cases hx₁
    exact Or.inr ⟨x, rfl, hmove⟩

end Steps

section Fields

variable (db : Db) (c : AssignmentClaim) (id : SubmissionId) (r : Submission)

/-- The pointer moves to the submission only past every version it could have led. -/
theorem bumpLatest_cases :
    bumpLatest db c id r = c ∨ (bumpLatest db c id r = c.withLatest id ∧
      ∀ l last, c.latestSubmissionId = some l → db.submissions.get l = some last →
        last.version < r.version) := by
  unfold bumpLatest
  split
  next => exact Or.inl rfl
  next =>
    split
    next current hcurrent =>
      split
      next => exact Or.inl rfl
      next hversion =>
        refine Or.inr ⟨rfl, fun l last hl hlast => ?_⟩
        rw [hl, Option.bind_some, hlast] at hcurrent
        cases hcurrent
        omega
    next hcurrent =>
      refine Or.inr ⟨rfl, fun l last hl hlast => ?_⟩
      rw [hl, Option.bind_some, hlast] at hcurrent
      cases hcurrent

@[simp] theorem bumpLatest_status : (bumpLatest db c id r).status = c.status := by
  rcases bumpLatest_cases db c id r with h | ⟨h, _⟩
  · rw [h]
  · rw [h]
    rfl

@[simp] theorem bumpLatest_rewardLockStatus :
    (bumpLatest db c id r).rewardLockStatus = c.rewardLockStatus := by
  rcases bumpLatest_cases db c id r with h | ⟨h, _⟩
  · rw [h]
  · rw [h]
    rfl

theorem entered_status {c : AssignmentClaim} (h : c.status.active = true) :
    c.entered.status = .underReview := by
  unfold AssignmentClaim.entered
  split
  next => rfl
  next hentry =>
    cases hstatus : c.status <;> simp_all [ClaimStatus.active, ClaimStatus.reviewEntry]

@[simp] theorem entered_rewardLockStatus : c.entered.rewardLockStatus = c.rewardLockStatus := by
  unfold AssignmentClaim.entered
  split <;> rfl

@[simp] theorem entered_latestSubmissionId :
    c.entered.latestSubmissionId = c.latestSubmissionId := by
  unfold AssignmentClaim.entered
  split <;> rfl

/-- A lock is left as it is, or made anew from the ladder or its lowest rung. -/
theorem establishLock_cases {k : ClaimId} {c locked : AssignmentClaim} {id : SubmissionId}
    {r : Submission} {rows : List RewardLockHistory}
    (h : establishLock k c id r = .ok (locked, rows)) :
    (c.rewardLockStatus.unlocked = false ∧ locked = c) ∨
      (c.rewardLockStatus.unlocked = true ∧
        ∃ fraction, locked = c.lock fraction r.submittedAt) := by
  rcases establishLock_ok.mp h with ⟨hlock, rfl, _⟩ | ⟨fraction, _, hlock, _, rfl, _⟩
  · exact Or.inl ⟨hlock, rfl⟩
  · exact Or.inr ⟨hlock, fraction, rfl⟩

end Fields

structure SameClaim (c c' : AssignmentClaim) : Prop where
  assignmentId : c'.assignmentId = c.assignmentId
  taskId : c'.taskId = c.taskId
  userId : c'.userId = c.userId
  graceDeadlineAt : c'.graceDeadlineAt = c.graceDeadlineAt
  base : c'.baseRewardPointsSnapshot = c.baseRewardPointsSnapshot

theorem SameClaim.refl (c : AssignmentClaim) : SameClaim c c := ⟨rfl, rfl, rfl, rfl, rfl⟩

theorem SameClaim.trans {a b c : AssignmentClaim} (h : SameClaim a b) (h' : SameClaim b c) :
    SameClaim a c :=
  ⟨h'.assignmentId.trans h.assignmentId, h'.taskId.trans h.taskId, h'.userId.trans h.userId,
    h'.graceDeadlineAt.trans h.graceDeadlineAt, h'.base.trans h.base⟩

theorem sameClaim_entered (c : AssignmentClaim) : SameClaim c c.entered := by
  unfold AssignmentClaim.entered
  split
  next => exact ⟨rfl, rfl, rfl, rfl, rfl⟩
  next => exact SameClaim.refl c

theorem sameClaim_bumpLatest (db : Db) (c : AssignmentClaim) (id : SubmissionId)
    (r : Submission) : SameClaim c (bumpLatest db c id r) := by
  rcases bumpLatest_cases db c id r with h | ⟨h, _⟩
  · rw [h]
    exact SameClaim.refl c
  · rw [h]
    exact ⟨rfl, rfl, rfl, rfl, rfl⟩

section Moves

variable {s : State} {db' : Db} {op : Op} {k : ClaimId} {c c' : AssignmentClaim}

theorem ClaimMove.sameClaim (h : ClaimMove s db' op k c c') : SameClaim c c' := by
  cases h with
  | same => exact SameClaim.refl c
  | locked id row _ locked rows _ _ _ hlocked _ =>
    have hlock : SameClaim c locked := by
      rcases establishLock_cases hlocked with ⟨_, rfl⟩ | ⟨_, _, rfl⟩
      · exact SameClaim.refl _
      · exact ⟨rfl, rfl, rfl, rfl, rfl⟩
    exact (hlock.trans (sameClaim_entered locked)).trans (sameClaim_bumpLatest _ _ _ _)
  | ended | finalized | validating | restored | returned | unlocked | approved =>
    exact ⟨rfl, rfl, rfl, rfl, rfl⟩

/-- The instants of a claim are fixed when it is made. -/
theorem ClaimMove.instants (h : ClaimMove s db' op k c c') :
    c'.claimedAt = c.claimedAt ∧ c'.deadlineAt = c.deadlineAt := by
  cases h with
  | same | ended | finalized | validating | restored | returned | unlocked | approved =>
    exact ⟨rfl, rfl⟩
  | locked id row _ locked rows _ _ _ hlocked _ =>
    have hlock : locked.claimedAt = c.claimedAt ∧ locked.deadlineAt = c.deadlineAt := by
      rcases establishLock_cases hlocked with ⟨_, rfl⟩ | ⟨_, _, rfl⟩
      · exact ⟨rfl, rfl⟩
      · exact ⟨rfl, rfl⟩
    have hentered : locked.entered.claimedAt = locked.claimedAt ∧
        locked.entered.deadlineAt = locked.deadlineAt := by
      unfold AssignmentClaim.entered
      split <;> exact ⟨rfl, rfl⟩
    rcases bumpLatest_cases s.db locked.entered id row with h | ⟨h, _⟩
    · rw [h, hentered.1, hentered.2]
      exact hlock
    · rw [h]
      exact ⟨hentered.1.trans hlock.1, hentered.2.trans hlock.2⟩

theorem ClaimMove.active (h : ClaimMove s db' op k c c') : c' = c ∨ c.status.active = true := by
  cases h with
  | same => exact Or.inl rfl
  | ended _ _ _ _ _ _ hactionable => exact Or.inr (ClaimStatus.active_of_actionable hactionable)
  | finalized _ _ _ _ _ _ _ hactionable =>
    exact Or.inr (ClaimStatus.active_of_actionable hactionable)
  | validating _ _ _ _ _ _ _ hactionable =>
    exact Or.inr (ClaimStatus.active_of_actionable hactionable)
  | restored _ _ _ _ _ _ _ _ _ _ hvalidating =>
    rw [hvalidating]
    exact Or.inr rfl
  | locked _ _ _ _ _ _ _ hactive => exact Or.inr hactive
  | returned _ _ _ _ _ hreviewable => exact Or.inr hreviewable.active
  | unlocked _ _ _ _ _ hreviewable => exact Or.inr hreviewable.active
  | approved _ _ _ _ hreviewable => exact Or.inr hreviewable.active

/-- A lock step leaves the claim with the status and the lock of the locked claim. -/
theorem locked_status {id : SubmissionId} {row : Submission} {locked : AssignmentClaim}
    {rows : List RewardLockHistory} (hactive : c.status.active = true)
    (hlocked : establishLock k c id row = .ok (locked, rows)) :
    (bumpLatest s.db locked.entered id row).status = .underReview := by
  rw [bumpLatest_status]
  apply entered_status
  rcases establishLock_cases hlocked with ⟨_, rfl⟩ | ⟨_, _, rfl⟩
  · exact hactive
  · exact hactive

/-- A claim that has had a lock never again has none. -/
theorem ClaimMove.lock_ne_none (h : ClaimMove s db' op k c c')
    (hlock : c.rewardLockStatus ≠ .none) : c'.rewardLockStatus ≠ .none := by
  cases h with
  | same | ended | finalized | validating | restored | returned => exact hlock
  | unlocked => exact fun h => by cases h
  | approved => exact fun h => by cases h
  | locked id row _ locked rows _ _ _ hlocked _ =>
    rw [bumpLatest_rewardLockStatus, entered_rewardLockStatus]
    rcases establishLock_cases hlocked with ⟨_, rfl⟩ | ⟨_, _, rfl⟩
    · exact hlock
    · exact fun h => by cases h

end Moves

structure SameSubmission (r r' : Submission) : Prop where
  claimId : r'.claimId = r.claimId
  version : r'.version = r.version
  submittedAt : r'.submittedAt = r.submittedAt
  objectKey : r'.objectKey = r.objectKey

section SubmissionMoves

variable {s : State} {op : Op} {id : SubmissionId} {r r' : Submission}

theorem SubmissionMove.sameSubmission (h : SubmissionMove s op id r r') :
    SameSubmission r r' := by
  cases h <;> exact ⟨rfl, rfl, rfl, rfl⟩

theorem SubmissionMove.terminal (h : SubmissionMove s op id r r')
    (hterminal : r.validationStatus.terminal = true) : r'.validationStatus.terminal = true := by
  cases h with
  | same | cleaned | reviewed => exact hterminal
  | started _ _ _ hopen =>
    rw [hterminal] at hopen
    cases hopen
  | finished run report => exact verdict_terminal report

end SubmissionMoves

structure Pointed (s : State) : Prop where
  latest : ∀ k c l, s.db.claims.get k = some c → c.latestSubmissionId = some l →
    ∃ last, s.db.submissions.get l = some last ∧ last.claimId = k
  newest : ∀ id r, s.db.submissions.get id = some r →
    ∃ c l last, s.db.claims.get r.claimId = some c ∧ c.latestSubmissionId = some l ∧
      s.db.submissions.get l = some last ∧ r.version ≤ last.version

/-- The pointer of a claim stays, or moves to a submission of the claim that is newer. -/
theorem ClaimMove.pointer {s : State} {db' : Db} {op : Op} {k : ClaimId}
    {c c' : AssignmentClaim} (hframe : ∀ id r, s.db.submissions.get id = some r →
      ∃ r', db'.submissions.get id = some r' ∧ SameSubmission r r')
    (h : ClaimMove s db' op k c c') :
    c'.latestSubmissionId = c.latestSubmissionId ∨
      ∃ l last, c'.latestSubmissionId = some l ∧ db'.submissions.get l = some last ∧
        last.claimId = k ∧ (∀ i r, c.latestSubmissionId = some i →
          s.db.submissions.get i = some r → r.claimId = k → r.version < last.version) := by
  cases h with
  | same | ended | validating | restored | returned | unlocked | approved => exact Or.inl rfl
  | finalized user intentId id head _ _ r _ _ hnew hclaim hversion =>
    refine Or.inr ⟨id, r, rfl, hnew, hclaim, fun i old _ hold hk => ?_⟩
    have hle := Db.version_le_maxVersion hold
    rw [hk] at hle
    omega
  | locked id row _ locked rows hrow _ _ hlocked =>
    have hlatest : locked.latestSubmissionId = c.latestSubmissionId := by
      rcases establishLock_cases hlocked with ⟨_, rfl⟩ | ⟨_, _, rfl⟩ <;> rfl
    rcases bumpLatest_cases s.db locked.entered id row with heq | ⟨heq, hnewer⟩
    · rw [heq, entered_latestSubmissionId]
      exact Or.inl hlatest
    · obtain ⟨row', hrow', hsame⟩ := hframe id row hrow
      rw [heq]
      refine Or.inr ⟨id, row', rfl, hrow', hsame.claimId, fun i old hi hold _ => ?_⟩
      rw [hsame.version]
      apply hnewer i old _ hold
      rw [entered_latestSubmissionId, hlatest, hi]

theorem submission_frame (s : State) (op : Op) (id : SubmissionId) (r : Submission)
    (h : s.db.submissions.get id = some r) :
    ∃ r', (s.apply op).db.submissions.get id = some r' ∧ SameSubmission r r' := by
  obtain ⟨r', hr', hmove⟩ := (apply_effect s op).submission_move h
  exact ⟨r', hr', hmove.sameSubmission⟩

theorem pointed_inductive : lifecycle.Inductive Pointed := by
  constructor
  · intro s hinit
    constructor
    · intro k c l hc
      rw [hinit.claims, Table.get_empty] at hc
      cases hc
    · intro id r hr
      rw [hinit.submissions, Table.get_empty] at hr
      cases hr
  · rintro s op _ hs rfl
    have hlatest : ∀ k c' l, (s.apply op).db.claims.get k = some c' →
        c'.latestSubmissionId = some l →
        ∃ last, (s.apply op).db.submissions.get l = some last ∧ last.claimId = k := by
      intro k c' l hc' hl
      rcases claim_step hc' with hmade | ⟨c, hc, hmove⟩
      · cases hmade
        cases hl
      · rcases hmove.pointer (submission_frame s op) with hsame | ⟨i, last, hi, hlast, hk, _⟩
        · obtain ⟨last, hlast, hk⟩ := hs.latest k c l hc (hsame ▸ hl)
          obtain ⟨last', hlast', hframe⟩ := submission_frame s op l last hlast
          exact ⟨last', hlast', hframe.claimId.trans hk⟩
        · rw [hl] at hi
          cases hi
          exact ⟨last, hlast, hk⟩
    refine ⟨hlatest, fun id r' hr' => ?_⟩
    rcases submission_step hr' with hmade | ⟨r, hr, hmove⟩
    · cases hmade with
      | finalized user intentId _ head intent claim size policy hsize _ _ _ hpointer =>
        exact ⟨_, id, _, hpointer, rfl, hr', le_rfl⟩
    · have hsame := hmove.sameSubmission
      obtain ⟨c, l, last, hc, hl, hlast, hversion⟩ := hs.newest id r hr
      obtain ⟨_, hget, hk⟩ := hs.latest r.claimId c l hc hl
      rw [hlast] at hget
      cases hget
      obtain ⟨c', hc', hclaim⟩ := (apply_effect s op).claim_move hc
      rw [hsame.claimId, hsame.version]
      rcases hclaim.pointer (submission_frame s op) with hptr | ⟨i, last', hi, hlast', _, hnewer⟩
      · obtain ⟨last', hlast', hframe⟩ := submission_frame s op l last hlast
        exact ⟨c', l, last', hc', hptr.trans hl, hlast', hframe.version ▸ hversion⟩
      · have hlt := hnewer l last hl hlast hk
        exact ⟨c', i, last', hc', hi, hlast', by omega⟩

/-- On a reachable state no lock step moves the pointer. -/
theorem Pointed.bumpLatest_eq {s : State} (hs : Pointed s) {id : SubmissionId} {r : Submission}
    {claim c : AssignmentClaim} (hr : s.db.submissions.get id = some r)
    (hclaim : s.db.claims.get r.claimId = some claim)
    (hc : c.latestSubmissionId = claim.latestSubmissionId) : bumpLatest s.db c id r = c := by
  rcases bumpLatest_cases s.db c id r with h | ⟨_, hnewer⟩
  · exact h
  · obtain ⟨_, l, last, hget, hl, hlast, hversion⟩ := hs.newest id r hr
    rw [hclaim] at hget
    cases hget
    have hlt := hnewer l last (hc.trans hl) hlast
    omega

/-- The lock of a claim fits its status, and a provisional lock is a rung of the ladder. -/
structure LockSound (c : AssignmentClaim) : Prop where
  review : c.status = .underReview → c.rewardLockStatus = .provisional
  unconfirmed : c.status.active = true → c.rewardLockStatus ≠ .confirmed
  ladder : c.rewardLockStatus = .provisional → ∃ fraction : RewardFraction,
    c.rewardTierLocked = some fraction.tierPercent ∧
      c.lockedRewardPoints = some (rewardPoints c.baseRewardPointsSnapshot fraction)

theorem LockSound.lock {c locked : AssignmentClaim} {k : ClaimId} {id : SubmissionId}
    {r : Submission} {rows : List RewardLockHistory} (h : LockSound c)
    (hactive : c.status.active = true) (hlocked : establishLock k c id r = .ok (locked, rows)) :
    locked.rewardLockStatus = .provisional ∧ ∃ fraction : RewardFraction,
      locked.rewardTierLocked = some fraction.tierPercent ∧
        locked.lockedRewardPoints = some (rewardPoints locked.baseRewardPointsSnapshot fraction) := by
  rcases establishLock_cases hlocked with ⟨hlock, rfl⟩ | ⟨_, fraction, rfl⟩
  · have hprovisional : locked.rewardLockStatus = .provisional := by
      have hconfirmed := h.unconfirmed hactive
      cases hstatus : locked.rewardLockStatus <;>
        simp_all [RewardLockStatus.unlocked]
    exact ⟨hprovisional, h.ladder hprovisional⟩
  · exact ⟨rfl, fraction, rfl, rfl⟩

theorem ClaimMove.lockSound {s : State} {db' : Db} {op : Op} {k : ClaimId}
    {c c' : AssignmentClaim} (hmove : ClaimMove s db' op k c c') (h : LockSound c) :
    LockSound c' := by
  cases hmove with
  | same => exact h
  | ended _ _ _ status t _ _ hstatus =>
    refine ⟨fun hreview => ?_, fun hactive => ?_, h.ladder⟩
    · change status = _ at hreview
      rw [hreview] at hstatus
      cases hstatus
    · change status.active = true at hactive
      cases status <;> simp_all [ClaimStatus.active, ClaimStatus.reassignExcluded]
  | finalized => exact ⟨h.review, h.unconfirmed, h.ladder⟩
  | validating _ _ _ _ _ _ _ hactionable =>
    refine ⟨fun hreview => ?_, fun _ => ?_, h.ladder⟩
    · cases hreview
    · exact h.unconfirmed (ClaimStatus.active_of_actionable hactionable)
  | restored _ _ _ _ _ _ status _ _ _ hvalidating hstatus =>
    have hactive : c.status.active = true := by
      rw [hvalidating]
      rfl
    refine ⟨fun hreview => ?_, fun _ => h.unconfirmed hactive, h.ladder⟩
    change status = _ at hreview
    rw [hstatus] at hreview
    split at hreview <;> cases hreview
  | locked id row _ locked rows _ _ hactive hlocked _ =>
    obtain ⟨hprovisional, fraction, htier, hpoints⟩ := h.lock hactive hlocked
    have hentered : LockSound locked.entered := by
      have hlocked' : locked.entered.rewardLockStatus = .provisional := by
        rw [entered_rewardLockStatus, hprovisional]
      refine ⟨fun _ => hlocked', fun _ hconfirmed => ?_, fun _ => ⟨fraction, ?_⟩⟩
      · rw [hlocked'] at hconfirmed
        cases hconfirmed
      · unfold AssignmentClaim.entered
        split
        next => exact ⟨htier, hpoints⟩
        next => exact ⟨htier, hpoints⟩
    rcases bumpLatest_cases s.db locked.entered id row with heq | ⟨heq, _⟩
    · rw [heq]
      exact hentered
    · rw [heq]
      exact ⟨hentered.review, hentered.unconfirmed, hentered.ladder⟩
  | returned _ _ _ _ _ hreviewable =>
    refine ⟨fun hreview => ?_, fun _ => h.unconfirmed hreviewable.active, h.ladder⟩
    cases hreview
  | unlocked =>
    refine ⟨fun hreview => ?_, fun _ hconfirmed => ?_, fun hprovisional => ?_⟩
    · cases hreview
    · cases hconfirmed
    · cases hprovisional
  | approved =>
    refine ⟨fun hreview => ?_, fun hactive => ?_, fun hprovisional => ?_⟩
    · cases hreview
    · cases hactive
    · cases hprovisional

theorem lockSound_inductive :
    lifecycle.Inductive fun s => ∀ k c, s.db.claims.get k = some c → LockSound c := by
  constructor
  · intro s hinit k c hc
    rw [hinit.claims, Table.get_empty] at hc
    cases hc
  · rintro s op _ hs rfl k c' hc'
    rcases claim_step hc' with hmade | ⟨c, hc, hmove⟩
    · cases hmade
      refine ⟨fun hreview => ?_, fun _ hconfirmed => ?_, fun hprovisional => ?_⟩
      · cases hreview
      · cases hconfirmed
      · cases hprovisional
    · exact hmove.lockSound (hs k c hc)

/-- No operation deletes a task. -/
theorem task_stays (s : State) (op : Op) {t : TaskId} (h : s.db.tasks.get t ≠ none) :
    (s.apply op).db.tasks.get t ≠ none := by
  have heffect := apply_effect s op
  generalize (s.apply op).db = db' at heffect
  cases heffect with
  | core _ hcore => exact hcore.tasks t h
  | ended => simpa only [Db.putClaim, leaveOccupied_tasks] using h
  | approved => simpa only [Db.putClaim, Db.putSubmission, leaveOccupied_tasks] using h
  | imported | cleaned | intentCleaned | intentMade | intentBurned | claimed | finalized | started
    | startedMoving | finished | finishedRestoring | locked | returned | invalidated => exact h

theorem hasTask_inductive : lifecycle.Inductive fun s =>
    ∀ k c, s.db.claims.get k = some c → s.db.tasks.get c.taskId ≠ none := by
  constructor
  · intro s hinit k c hc
    rw [hinit.claims, Table.get_empty] at hc
    cases hc
  · rintro s op _ hs rfl k c' hc'
    rcases claim_step hc' with hmade | ⟨c, hc, hmove⟩
    · cases hmade with
      | claimed user taskId _ choice a row task deadlines htask =>
        apply task_stays
        change s.db.tasks.get taskId ≠ none
        rw [htask]
        simp
    · rw [hmove.sameClaim.taskId]
      exact task_stays s op (hs k c hc)

/-- The clock never goes back. -/
theorem now_apply (s : State) (op : Op) : s.now ≤ (s.apply op).now := by
  have hcommit : ∀ {α : Type} (answer : Answer (α × Db)), (s.commit answer).now = s.now := by
    intro α answer
    cases answer <;> rfl
  cases op with
  | tick now => exact le_max_left s.now now
  | account | task | collaborate | expire => exact le_refl s.now
  | claim | abandon | createIntent | finalize | startValidation | requireRevision | invalidate
    | approve => exact (hcommit _).ge
  | importAssignment id task =>
    change s.now ≤ (s.importAssignment id task).now
    unfold State.importAssignment
    split <;> exact le_refl s.now
  | cleanup id hold lease =>
    change s.now ≤ (s.cleanup id hold lease).now
    unfold State.cleanup
    split <;> exact le_refl s.now
  | cleanupIntent id lease =>
    change s.now ≤ (s.cleanupIntent id lease).now
    unfold State.cleanupIntent
    split <;> exact le_refl s.now
  | points call =>
    change s.now ≤ (s.callPoints call).now
    unfold State.callPoints
    split <;> exact le_refl s.now
  | finishValidation run report detected =>
    change s.now ≤ (if s.unfinished run = true then
      s.commit (finishValidation s.db s.now run report detected) else s).now
    split
    · exact (hcommit _).ge
    · exact le_refl s.now
  | onValidationPassed id =>
    change s.now ≤ (s.commitLock id (onValidationPassed s.db id)).now
    unfold State.commitLock
    split <;> exact le_refl s.now

/-- A lock step is remembered only when it answered for a validated submission, and then an
active claim is under review. -/
theorem apply_applied (s : State) (op : Op) : (s.apply op).applied = s.applied ∨
    ∃ id row, op = .onValidationPassed id ∧ (s.apply op).applied = insert id s.applied ∧
      s.db.submissions.get id = some row ∧ row.validationStatus = .validated ∧
      ∀ c, (s.apply op).db.claims.get row.claimId = some c → c.status.active = true →
        c.status = .underReview := by
  have hcommit : ∀ {α : Type} (answer : Answer (α × Db)),
      (s.commit answer).applied = s.applied := by
    intro α answer
    cases answer <;> rfl
  cases op with
  | onValidationPassed id =>
    cases hanswer : onValidationPassed s.db id with
    | error e =>
      left
      change (s.commitLock id (onValidationPassed s.db id)).applied = _
      rw [hanswer]
      rfl
    | ok answer =>
      obtain ⟨claim', db⟩ := answer
      obtain ⟨row, claim, hrow, hclaim, hvalidated, hstep⟩ := onValidationPassed_ok.mp hanswer
      have happly : s.apply (.onValidationPassed id) =
          { s with db := db, applied := insert id s.applied } := by
        change s.commitLock id (onValidationPassed s.db id) = _
        rw [hanswer]
        rfl
      change (s.apply (.onValidationPassed id)).applied = _ ∨ _
      rw [happly]
      refine Or.inr ⟨id, row, rfl, rfl, hrow, hvalidated, fun c hc hactive => ?_⟩
      rcases hstep with ⟨hterminal, _, rfl⟩ | ⟨locked, rows, hterminal, hlocked, _, rfl, rfl⟩
      · rw [hclaim] at hc
        cases hc
        rw [ClaimStatus.terminal_eq_not_active, hactive] at hterminal
        cases hterminal
      · have hc : (s.db.claims.put row.claimId _).get row.claimId = some c := hc
        rw [Table.get_put_self] at hc
        cases hc
        exact locked_status (active_of_not_terminal hterminal) hlocked
  | importAssignment id task =>
    left
    change (s.importAssignment id task).applied = _
    unfold State.importAssignment
    split <;> rfl
  | cleanup id hold lease =>
    left
    change (s.cleanup id hold lease).applied = _
    unfold State.cleanup
    split <;> rfl
  | cleanupIntent id lease =>
    left
    change (s.cleanupIntent id lease).applied = _
    unfold State.cleanupIntent
    split <;> rfl
  | points call =>
    left
    change (s.callPoints call).applied = _
    unfold State.callPoints
    split <;> rfl
  | finishValidation run report detected =>
    left
    change (if s.unfinished run = true then
      s.commit (finishValidation s.db s.now run report detected) else s).applied = _
    split
    · exact hcommit _
    · rfl
  | tick | account | task | collaborate | expire => exact Or.inl rfl
  | claim | abandon | createIntent | finalize | startValidation | requireRevision | invalidate
    | approve => exact Or.inl (hcommit _)

/-- A submission whose lock step has answered is validated or failed for ever, and its claim
has a lock while it is active. -/
def AppliedSound (s : State) : Prop :=
  ∀ id ∈ s.applied, ∃ row, s.db.submissions.get id = some row ∧
    row.validationStatus.terminal = true ∧
    ∀ c, s.db.claims.get row.claimId = some c → c.status.active = true →
      c.rewardLockStatus ≠ .none

theorem appliedSound_reach {s : State} (hs : lifecycle.Reach s) : AppliedSound s := by
  refine reach_induction (lockSound_inductive.and pointed_inductive) ?_ ?_ hs
  · intro s hinit id hid
    rw [hinit.applied] at hid
    cases hid
  · rintro s op _ ⟨hlock, hpointed⟩ happlied rfl id hid
    have hlock' := lockSound_inductive.step s op _ hlock rfl
    have hkept : id ∈ s.applied → ∃ row', (s.apply op).db.submissions.get id = some row' ∧
        row'.validationStatus.terminal = true ∧
        ∀ c, (s.apply op).db.claims.get row'.claimId = some c → c.status.active = true →
          c.rewardLockStatus ≠ .none := by
      intro hold
      obtain ⟨row, hrow, hterminal, hclaim⟩ := happlied id hold
      obtain ⟨row', hrow', hmove⟩ := (apply_effect s op).submission_move hrow
      refine ⟨row', hrow', hmove.terminal hterminal, fun c' hc' hactive => ?_⟩
      rw [hmove.sameSubmission.claimId] at hc'
      rcases claim_step hc' with hmade | ⟨c, hc, hstep⟩
      · obtain ⟨c, _, _, hc, _⟩ := hpointed.newest id row hrow
        cases hmade with
        | claimed _ _ _ _ _ _ _ _ _ _ _ _ hfresh =>
          rw [hfresh] at hc
          cases hc
      · rcases hstep.active with rfl | hbefore
        · exact hclaim c' hc hactive
        · exact hstep.lock_ne_none (hclaim c hc hbefore)
    rcases apply_applied s op with hsame | ⟨i, row, rfl, hinsert, hrow, hvalidated, hreview⟩
    · rw [hsame] at hid
      exact hkept hid
    · rw [hinsert] at hid
      rcases Finset.mem_insert.mp hid with rfl | hold
      · obtain ⟨row', hrow', hmove⟩ :=
          (apply_effect s (.onValidationPassed id)).submission_move hrow
        refine ⟨row', hrow', hmove.terminal (by rw [hvalidated]; rfl), fun c hc hactive => ?_⟩
        rw [hmove.sameSubmission.claimId] at hc
        rw [(hlock' row.claimId c hc).review (hreview c hc hactive)]
        decide
      · exact hkept hold

end CampusQuest.Lifecycle
