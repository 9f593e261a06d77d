import CampusQuest.ClaimInvariants
import CampusQuest.Trails
import Mathlib.Data.Nat.Log

/-!
The money of a reward lock and its history. Points are computed in decimals of 28 digits,
which is exact for every base reward that a column can hold. A claim's lock is a register
that two services move, each move with a row of the history; the rows of a claim lead from the
open register to the one that the claim shows, and a value that is locked stays until it is
cancelled.
-/

namespace CampusQuest.Lifecycle

open Tables Runs System Guards

section Decimals

structure Decimal where
  coefficient : ℤ
  exponent : ℤ

def decimalPrecision : ℕ := 28

def roundHalfEven (c : ℤ) (p : ℕ) : ℤ :=
  let q := c.natAbs / p
  let r := c.natAbs % p
  c.sign * (if p < 2 * r ∨ (2 * r = p ∧ q % 2 = 1) then q + 1 else q : ℕ)

def Decimal.fix (d : Decimal) : Decimal :=
  let excess := Nat.log 10 d.coefficient.natAbs + 1 - decimalPrecision
  if excess = 0 then d
  else ⟨roundHalfEven d.coefficient (10 ^ excess), d.exponent + excess⟩

def Decimal.mul (a b : Decimal) : Decimal :=
  Decimal.fix ⟨a.coefficient * b.coefficient, a.exponent + b.exponent⟩

/-- `int(d.to_integral_value(rounding=ROUND_FLOOR))`. -/
def Decimal.floor (d : Decimal) : ℤ :=
  if 0 ≤ d.exponent then d.coefficient * 10 ^ d.exponent.toNat
  else d.coefficient / 10 ^ (-d.exponent).toNat

def RewardFraction.decimal : RewardFraction → Decimal
  | .full => ⟨1, 0⟩
  | .early => ⟨8, -1⟩
  | .mid => ⟨5, -1⟩
  | .late => ⟨2, -1⟩

def decimalRewardPoints (base : ℤ) (fraction : RewardFraction) : ℤ :=
  (Decimal.mul ⟨base, 0⟩ fraction.decimal).floor

/-- What the column of a base reward holds: a positive integer of four bytes. -/
def BaseReward (base : ℤ) : Prop := 0 < base ∧ base ≤ 2147483647

/-- A result within the precision is exact. -/
theorem Decimal.fix_eq {d : Decimal} (h : d.coefficient.natAbs < 10 ^ decimalPrecision) :
    d.fix = d := by
  have hdigits : Nat.log 10 d.coefficient.natAbs < decimalPrecision := by
    by_cases hzero : d.coefficient.natAbs = 0
    · rw [hzero, Nat.log_zero_right]
      decide
    · exact Nat.log_lt_of_lt_pow hzero h
  unfold Decimal.fix
  dsimp only
  rw [if_pos]
  omega

/-- On a base reward the decimals answer the exact floor. -/
theorem decimalRewardPoints_eq {base : ℤ} (h : BaseReward base) (f : RewardFraction) :
    decimalRewardPoints base f = rewardPoints base f := by
  obtain ⟨hpos, hmax⟩ := h
  have hexact : Decimal.mul ⟨base, 0⟩ f.decimal =
      ⟨base * f.decimal.coefficient, 0 + f.decimal.exponent⟩ := by
    refine Decimal.fix_eq ?_
    have hprecision : 10 ^ decimalPrecision = 10000000000000000000000000000 := by
      norm_num [decimalPrecision]
    rw [hprecision]
    cases f <;> simp only [RewardFraction.decimal] <;> omega
  unfold decimalRewardPoints rewardPoints
  rw [hexact]
  cases f <;> simp [Decimal.floor, RewardFraction.decimal, RewardFraction.tierPercent] <;> omega

/-- The points are the floor of base times percentage over 100, and at most the base. -/
theorem rewardPoints_floor {base : ℤ} (h : 0 < base) (f : RewardFraction) :
    100 * rewardPoints base f ≤ base * f.tierPercent ∧
      base * f.tierPercent < 100 * (rewardPoints base f + 1) ∧ rewardPoints base f ≤ base := by
  unfold rewardPoints
  cases f <;> simp only [RewardFraction.tierPercent] <;> omega

theorem rewardPoints_mono {base : ℤ} (h : 0 < base) {f f' : RewardFraction}
    (hle : f'.tierPercent ≤ f.tierPercent) : rewardPoints base f' ≤ rewardPoints base f :=
  Int.ediv_le_ediv (by decide) (Int.mul_le_mul_of_nonneg_left hle h.le)

/-- What a submission instant earns, an earlier one earns too: the tier only falls. -/
theorem rewardFraction_antitone {t t' deadline grace : Instant} {f' : RewardFraction}
    (h : t ≤ t') (hf' : rewardFraction t' deadline grace = .ok f') :
    ∃ f, rewardFraction t deadline grace = .ok f ∧ f'.tierPercent ≤ f.tierPercent := by
  have hwidths : hours 4 ≤ hours 12 := by decide
  have hgrace : ¬ grace ≤ t := by
    intro hclosed
    unfold rewardFraction at hf'
    rw [if_pos (le_trans hclosed h)] at hf'
    cases hf'
  have hfull : f'.tierPercent ≤ 100 := by cases f' <;> decide
  unfold rewardFraction at hf' ⊢
  rw [if_neg hgrace]
  rw [if_neg (fun hclosed => by rw [if_pos hclosed] at hf'; cases hf')] at hf'
  split
  next => exact ⟨_, rfl, hfull⟩
  next hlate =>
    rw [if_neg (fun hin => hlate (le_trans h hin))] at hf'
    have hearly : f'.tierPercent ≤ 80 := by
      split at hf'
      · cases hf'
        decide
      · split at hf' <;> cases hf' <;> decide
    split
    next => exact ⟨_, rfl, hearly⟩
    next hmid =>
      rw [if_neg (fun hin => hmid (lt_of_le_of_lt h hin))] at hf'
      have hmid : f'.tierPercent ≤ 50 := by
        split at hf' <;> cases hf' <;> decide
      split
      next => exact ⟨_, rfl, hmid⟩
      next hlast =>
        rw [if_neg (fun hin => hlast (lt_of_le_of_lt h hin))] at hf'
        cases hf'
        exact ⟨_, rfl, le_rfl⟩

end Decimals

section Machine

structure LockRegister where
  status : RewardLockStatus
  tier : Option ℤ
  points : Option ℤ
  deriving DecidableEq

def LockRegister.opened : LockRegister := ⟨.none, none, none⟩

def AssignmentClaim.lockRegister (c : AssignmentClaim) : LockRegister :=
  ⟨c.rewardLockStatus, c.rewardTierLocked, c.lockedRewardPoints⟩

/-- What a lock is for: it is made where there is none, and then kept to the end unless it is
cancelled; the row of a cancelled lock keeps the value that the register loses. -/
inductive LockStep : LockRegister → RewardLockHistory → LockRegister → Prop
  | made (l : LockRegister) (row : RewardLockHistory) (hunlocked : l.status.unlocked = true)
      (hfrom : row.lockStatusFrom = l.status) (hto : row.lockStatusTo = .provisional) :
      LockStep l row ⟨.provisional, row.rewardTierLocked, row.lockedRewardPoints⟩
  | confirmed (l : LockRegister) (row : RewardLockHistory) (hlock : l.status = .provisional)
      (hfrom : row.lockStatusFrom = .provisional) (hto : row.lockStatusTo = .confirmed)
      (htier : row.rewardTierLocked = l.tier) (hpoints : row.lockedRewardPoints = l.points) :
      LockStep l row ⟨.confirmed, l.tier, l.points⟩
  | cancelled (l : LockRegister) (row : RewardLockHistory) (hlock : l.status = .provisional)
      (hfrom : row.lockStatusFrom = .provisional) (hto : row.lockStatusTo = .invalidated)
      (htier : row.rewardTierLocked = l.tier) (hpoints : row.lockedRewardPoints = l.points) :
      LockStep l row ⟨.invalidated, none, none⟩

def lockMachine : System LockRegister RewardLockHistory where
  init l := l = .opened
  step := LockStep

/-- A register shows the status that a row enters, and the row's value unless the row cancels
it. -/
def Shows (l : LockRegister) (row : RewardLockHistory) : Prop :=
  l.status = row.lockStatusTo ∧
    if row.lockStatusTo = .invalidated then l.tier = none ∧ l.points = none
    else l.tier = row.rewardTierLocked ∧ l.points = row.lockedRewardPoints

/-- A row starts from where the row before it ended, and unless it makes a lock it repeats the
value of that row. -/
def Follows (a b : RewardLockHistory) : Prop :=
  b.lockStatusFrom = a.lockStatusTo ∧ (b.lockStatusTo ≠ .provisional →
    b.rewardTierLocked = a.rewardTierLocked ∧ b.lockedRewardPoints = a.lockedRewardPoints)

section Steps

variable {l l' l'' : LockRegister} {row row' : RewardLockHistory}

theorem LockStep.starts (h : LockStep l row l') : row.lockStatusFrom = l.status := by
  cases h with
  | made _ hfrom _ => exact hfrom
  | confirmed hlock hfrom => exact hfrom.trans hlock.symm
  | cancelled hlock hfrom => exact hfrom.trans hlock.symm

theorem LockStep.shown (h : LockStep l row l') : Shows l' row := by
  unfold Shows
  cases h with
  | made _ _ hto =>
    rw [hto]
    exact ⟨rfl, rfl, rfl⟩
  | confirmed _ _ hto htier hpoints =>
    rw [hto]
    exact ⟨rfl, htier.symm, hpoints.symm⟩
  | cancelled _ _ hto =>
    rw [hto]
    exact ⟨rfl, rfl, rfl⟩

theorem LockStep.follows (h : LockStep l row l') (h' : LockStep l' row' l'') :
    Follows row row' := by
  have hshown := h.shown
  unfold Shows at hshown
  refine ⟨h'.starts.trans hshown.1, fun hto => ?_⟩
  have hprovisional : l'.status = .provisional ∧ row'.rewardTierLocked = l'.tier ∧
      row'.lockedRewardPoints = l'.points := by
    cases h' with
    | made _ _ hmade => exact absurd hmade hto
    | confirmed hlock _ _ htier hpoints => exact ⟨hlock, htier, hpoints⟩
    | cancelled hlock _ _ htier hpoints => exact ⟨hlock, htier, hpoints⟩
  obtain ⟨hlock, htier, hpoints⟩ := hprovisional
  obtain ⟨hstatus, hvalue⟩ := hshown
  rw [if_neg (fun hinvalid => by rw [hstatus, hinvalid] at hlock; cases hlock)] at hvalue
  exact ⟨htier.trans hvalue.1, hpoints.trans hvalue.2⟩

/-- Only a cancelled lock loses its value. -/
theorem LockStep.keeps (h : LockStep l row l') (hlocked : l.status.unlocked = false)
    (hvalid : l'.status ≠ .invalidated) :
    l'.status.unlocked = false ∧ l'.tier = l.tier ∧ l'.points = l.points := by
  cases h with
  | made hunlocked =>
    rw [hlocked] at hunlocked
    cases hunlocked
  | confirmed => exact ⟨rfl, rfl, rfl⟩
  | cancelled => exact absurd rfl hvalid

end Steps

end Machine

section Services

def Db.registers (db : Db) (k : ClaimId) : Option LockRegister :=
  (db.claims.get k).map AssignmentClaim.lockRegister

structure Recorded (db db' : Db) (row : RewardLockHistory) : Prop where
  history : db'.lockHistory = db.lockHistory ++ [row]
  moved : ∃ c c', db.claims.get row.claimId = some c ∧
    db'.claims = db.claims.put row.claimId c' ∧ LockStep c.lockRegister row c'.lockRegister

/-- No lock has moved; a new claim has none. -/
structure Unrecorded (db db' : Db) : Prop where
  history : db'.lockHistory = db.lockHistory
  registers : ∀ k, db'.registers k = db.registers k ∨
    db.registers k = none ∧ db'.registers k = some .opened

/-- A lock is made at the tier of its submission's instant, or at the lowest one when it is
made anew past the grace deadline. -/
structure Priced (row : RewardLockHistory) (r : Submission) (c : AssignmentClaim)
    (f : RewardFraction) : Prop where
  claim : r.claimId = row.claimId
  ladder : rewardFraction r.submittedAt c.deadlineAt c.graceDeadlineAt = .ok f ∨
    row.lockStatusFrom = .invalidated ∧ c.graceDeadlineAt ≤ r.submittedAt ∧ f = .late
  tier : row.rewardTierLocked = some f.tierPercent
  points : row.lockedRewardPoints = some (rewardPoints c.baseRewardPointsSnapshot f)

def Db.PricedRow (db : Db) (row : RewardLockHistory) : Prop :=
  row.lockStatusTo = .provisional → ∃ r c f, db.submissions.get row.submissionId = some r ∧
    db.claims.get row.claimId = some c ∧ Priced row r c f

@[simp] theorem bumpLatest_lockRegister (db : Db) (c : AssignmentClaim) (id : SubmissionId)
    (r : Submission) : (bumpLatest db c id r).lockRegister = c.lockRegister := by
  rcases bumpLatest_cases db c id r with h | ⟨h, _⟩
  · rw [h]
  · rw [h]
    rfl

@[simp] theorem entered_lockRegister (c : AssignmentClaim) :
    c.entered.lockRegister = c.lockRegister := by
  unfold AssignmentClaim.entered
  split <;> rfl

variable {db db' : Db} {now : Instant} {actor : Actor} {id : SubmissionId}

theorem Unrecorded.refl (db : Db) : Unrecorded db db := ⟨rfl, fun _ => Or.inl rfl⟩

/-- A claim that is written back with its register leaves all registers. -/
theorem registers_put {k : ClaimId} {c c' : AssignmentClaim} (hc : db.claims.get k = some c)
    (hclaims : db'.claims = db.claims.put k c') (hsame : c'.lockRegister = c.lockRegister)
    (k' : ClaimId) : db'.registers k' = db.registers k' := by
  unfold Db.registers
  rw [hclaims, Table.get_put]
  split
  next hk =>
    subst hk
    rw [hc, Option.map_some, Option.map_some, hsame]
  next => rfl

theorem lockFraction_ok {claim : AssignmentClaim} {s : Submission} {f : RewardFraction}
    {clamped : Bool} (h : lockFraction claim id s = .ok (f, clamped)) :
    rewardFraction s.submittedAt claim.deadlineAt claim.graceDeadlineAt = .ok f ∨
      claim.rewardLockStatus = .invalidated ∧ claim.graceDeadlineAt ≤ s.submittedAt ∧
        f = .late := by
  unfold lockFraction at h
  split at h
  next f' hf' =>
    cases h
    exact Or.inl hf'
  next hclosed =>
    split at h
    next => cases h
    next hlock =>
      cases h
      exact Or.inr ⟨by simpa using hlock, rewardFraction_error hclosed, rfl⟩

/-- The lock service makes a lock with its row, or leaves every lock. -/
theorem onValidationPassed_recorded {claim' : AssignmentClaim}
    (h : onValidationPassed db id = .ok (claim', db')) :
    Unrecorded db db' ∨ ∃ row, Recorded db db' row ∧ ∃ r c f,
      db.submissions.get row.submissionId = some r ∧ db.claims.get row.claimId = some c ∧
        Priced row r c f := by
  obtain ⟨s, claim, hs, hclaim, _, ⟨_, _, rfl⟩ | ⟨locked, rows, _, hlocked, _, rfl, rfl⟩⟩ :=
    onValidationPassed_ok.mp h
  · exact Or.inl (.refl _)
  · rcases establishLock_ok.mp hlocked with ⟨_, rfl, rfl⟩ |
      ⟨f, clamped, hunlocked, hfraction, rfl, rfl⟩
    · refine Or.inl ⟨List.append_nil _, fun k => Or.inl ?_⟩
      exact registers_put hclaim rfl (by simp) k
    · refine Or.inr ⟨lockHistoryRow s.claimId claim id f clamped,
        ⟨rfl, claim, _, hclaim, rfl, ?_⟩, s, claim, f, hs, hclaim,
        ⟨rfl, lockFraction_ok hfraction, rfl, rfl⟩⟩
      rw [bumpLatest_lockRegister, entered_lockRegister]
      exact .made claim.lockRegister (lockHistoryRow s.claimId claim id f clamped) hunlocked rfl rfl

/-- An invalidation cancels the lock, and its row keeps the value. -/
theorem invalidateRewardLock_recorded {reason : Option Text} {claim' : AssignmentClaim}
    (h : invalidateRewardLock db now actor id reason = .ok (claim', db')) :
    ∃ row, Recorded db db' row ∧ row.lockStatusTo = .invalidated := by
  unfold invalidateRewardLock at h
  obtain ⟨_, h⟩ := ensure_bind_ok.mp h
  obtain ⟨⟨s, claim⟩, hreviewable, h⟩ := bind_ok.mp h
  obtain ⟨hlock, h⟩ := ensure_bind_ok.mp h
  cases h
  refine ⟨_, ⟨rfl, claim, claim.unlock.returned now, (lockedReviewable_ok.mp hreviewable).held,
    rfl, ?_⟩, rfl⟩
  exact .cancelled claim.lockRegister _ hlock rfl rfl rfl rfl

/-- An approval confirms the lock at its value, or is a replay. -/
theorem approveSubmission_recorded {result : ApprovalResult}
    (h : approveSubmission db now actor id = .ok (result, db')) :
    db' = db ∨ ∃ row, Recorded db db' row ∧ row.lockStatusTo = .confirmed := by
  unfold approveSubmission at h
  obtain ⟨s, _, h⟩ := orRefuse_bind_ok.mp h
  obtain ⟨claim, hclaim, h⟩ := orRefuse_bind_ok.mp h
  split at h
  next =>
    cases h
    exact Or.inl rfl
  next =>
    obtain ⟨_, h⟩ := ensure_bind_ok.mp h
    obtain ⟨_, _, h⟩ := bind_ok.mp h
    obtain ⟨_, h⟩ := ensure_bind_ok.mp h
    obtain ⟨hlock, h⟩ := ensure_bind_ok.mp h
    obtain ⟨tier, htier, h⟩ := orRefuse_bind_ok.mp h
    obtain ⟨points, hpoints, h⟩ := orRefuse_bind_ok.mp h
    obtain ⟨_, _, h⟩ := orRefuse_bind_ok.mp h
    obtain ⟨⟨entry, paid⟩, _, h⟩ := bind_ok.mp h
    cases h
    refine Or.inr ⟨_, ⟨rfl, claim, claim.complete now, hclaim, ?_, ?_⟩, rfl⟩
    · rw [← leaveOccupied_claims db claim.assignmentId .completed]
      rfl
    · exact .confirmed claim.lockRegister _ hlock rfl rfl htier.symm hpoints.symm

end Services

section Runs

def Op.locks : Op → Bool
  | .onValidationPassed _ | .invalidate _ _ _ | .approve _ _ => true
  | _ => false

theorem leaveOccupied_lockHistory (db : Db) (a : AssignmentId) (status : AssignmentAvailability) :
    (db.leaveOccupied a status).lockHistory = db.lockHistory := by
  unfold Db.leaveOccupied
  split
  · split <;> rfl
  · rfl

theorem restoreActionableClaim_lockHistory (db : Db) (id : SubmissionId) (claimId : ClaimId) :
    (restoreActionableClaim db id claimId).lockHistory = db.lockHistory := by
  cases hclaim : db.claims.get claimId with
  | none => rw [restoreActionableClaim_none hclaim]
  | some claim =>
    rw [restoreActionableClaim_some claim hclaim]
    split
    · rfl
    · split <;> rfl

/-- What holds of every committed answer and of a refusal holds of the step. -/
theorem commit_lockHistory {α : Type} {s : State} {answer : Answer (α × Db)}
    (h : ∀ a db, answer = .ok (a, db) → db.lockHistory = s.db.lockHistory) :
    (s.commit answer).db.lockHistory = s.db.lockHistory := by
  cases hanswer : answer with
  | ok result => exact h result.1 result.2 hanswer
  | error e => rfl

/-- The other operations write no row. -/
theorem apply_lockHistory (s : State) {op : Op} (hop : op.locks = false) :
    (s.apply op).db.lockHistory = s.db.lockHistory := by
  cases op with
  | tick now => rfl
  | account user row => rfl
  | task id row => rfl
  | collaborate id teacher permissions => rfl
  | importAssignment id task =>
    change (s.importAssignment id task).db.lockHistory = _
    unfold State.importAssignment
    split <;> rfl
  | cleanup id hold lease =>
    change (s.cleanup id hold lease).db.lockHistory = _
    unfold State.cleanup
    split <;> rfl
  | cleanupIntent id lease =>
    change (s.cleanupIntent id lease).db.lockHistory = _
    unfold State.cleanupIntent
    split <;> rfl
  | points call =>
    change (s.callPoints call).db.lockHistory = _
    unfold State.callPoints
    split <;> rfl
  | claim user task id choice =>
    refine commit_lockHistory fun claim db h => ?_
    obtain ⟨_, _, _, _, _, _, _, _, _, _, _, _, rfl⟩ := claimRandomAssignment_ok h
    rfl
  | expire id now =>
    change (expireClaimIfDue s.db id now).2.lockHistory = _
    rcases expireClaimIfDue_cases s.db id now with hsame | ⟨claim, _, _, hdb⟩
    · rw [hsame]
    · rw [hdb]
      exact leaveOccupied_lockHistory s.db claim.assignmentId .available
  | abandon day limit user id =>
    refine commit_lockHistory fun claim' db h => ?_
    rcases abandonClaim_ok h with rfl | ⟨claim, _, _, _, _, rfl⟩
    · rfl
    · exact leaveOccupied_lockHistory s.db claim.assignmentId .available
  | createIntent user claim id objectKey declaredType size =>
    refine commit_lockHistory fun intent db h => ?_
    obtain ⟨_, _, _, rfl⟩ := createUploadIntent_ok h
    rfl
  | finalize user intentId id head =>
    refine commit_lockHistory fun out db h => ?_
    rcases finalizeUpload_ok h with ⟨_, _, _, _, _, _, _, rfl⟩ | ⟨_, _, _, _, _, rfl⟩ |
      ⟨_, _, _, _, _, _, _, _, _, rfl⟩
    · rfl
    · rfl
    · rfl
  | startValidation id run =>
    refine commit_lockHistory fun out db h => ?_
    cases out with
    | replay report status detected => rw [startValidation_replay h]
    | started run' =>
      obtain ⟨_, _, row, _, _, _, rfl⟩ := startValidation_started.mp h
      change (s.db.enterValidating row.claimId).lockHistory = _
      unfold Db.enterValidating
      split
      · rfl
      · split <;> rfl
  | finishValidation run report detected =>
    change (if s.unfinished run = true then
      s.commit (finishValidation s.db s.now run report detected) else s).db.lockHistory = _
    split
    · refine commit_lockHistory fun status db h => ?_
      obtain ⟨row, sub, _, _, _, rfl⟩ := finishValidation_ok.mp h
      split
      · exact restoreActionableClaim_lockHistory _ _ _
      · rfl
    · rfl
  | requireRevision actor id note =>
    refine commit_lockHistory fun claim' db h => ?_
    obtain ⟨row, claim, _, rfl, rfl⟩ := requireRevision_ok.mp h
    rfl
  | onValidationPassed id => cases hop
  | invalidate actor id reason => cases hop
  | approve actor id => cases hop

/-- Without a lock operation a claim keeps its register. -/
theorem ClaimMove.lockRegister {s : State} {db' : Db} {op : Op} {k : ClaimId}
    {c c' : AssignmentClaim} (hmove : ClaimMove s db' op k c c') (hop : op.locks = false) :
    c'.lockRegister = c.lockRegister := by
  cases hmove with
  | same | ended | finalized | validating | restored | returned => rfl
  | locked | unlocked | approved => cases hop

theorem registers_quiet (s : State) {op : Op} (hop : op.locks = false) (k : ClaimId) :
    (s.apply op).db.registers k = s.db.registers k ∨
      s.db.registers k = none ∧ (s.apply op).db.registers k = some .opened := by
  unfold Db.registers
  cases hold : s.db.claims.get k with
  | some c =>
    obtain ⟨c', hc', hmove⟩ := (apply_effect s op).claim_move hold
    rw [hc', Option.map_some, Option.map_some, hmove.lockRegister hop]
    exact Or.inl rfl
  | none =>
    cases hnew : (s.apply op).db.claims.get k with
    | none => exact Or.inl rfl
    | some c' =>
      refine Or.inr ⟨rfl, ?_⟩
      cases (apply_effect s op).claim_made hold hnew with
      | claimed => rfl

/-- Every operation moves one lock with one row, or none. -/
theorem apply_recorded (s : State) (op : Op) :
    Unrecorded s.db (s.apply op).db ∨ ∃ row, Recorded s.db (s.apply op).db row ∧
      (row.lockStatusTo = .provisional → ∃ r c f, s.db.submissions.get row.submissionId = some r ∧
        s.db.claims.get row.claimId = some c ∧ Priced row r c f) := by
  by_cases hop : op.locks = false
  · exact Or.inl ⟨apply_lockHistory s hop, registers_quiet s hop⟩
  · cases op with
    | onValidationPassed id =>
      change Unrecorded s.db (s.commitLock id (onValidationPassed s.db id)).db ∨ _
      cases hanswer : onValidationPassed s.db id with
      | error e => exact Or.inl (.refl _)
      | ok result =>
        rcases onValidationPassed_recorded hanswer with hquiet | ⟨row, hrow, hpriced⟩
        · exact Or.inl hquiet
        · refine Or.inr ⟨row, ?_, fun _ => hpriced⟩
          change Recorded s.db (s.commitLock id (onValidationPassed s.db id)).db row
          rw [hanswer]
          exact hrow
    | invalidate actor id reason =>
      change Unrecorded s.db (s.commit (invalidateRewardLock s.db s.now actor id reason)).db ∨ _
      cases hanswer : invalidateRewardLock s.db s.now actor id reason with
      | error e => exact Or.inl (.refl _)
      | ok result =>
        obtain ⟨row, hrow, hto⟩ := invalidateRewardLock_recorded hanswer
        refine Or.inr ⟨row, ?_, fun hmade => ?_⟩
        · change Recorded s.db (s.commit (invalidateRewardLock s.db s.now actor id reason)).db row
          rw [hanswer]
          exact hrow
        · rw [hto] at hmade
          cases hmade
    | approve actor id =>
      change Unrecorded s.db (s.commit (approveSubmission s.db s.now actor id)).db ∨ _
      cases hanswer : approveSubmission s.db s.now actor id with
      | error e => exact Or.inl (.refl _)
      | ok result =>
        rcases approveSubmission_recorded hanswer with hsame | ⟨row, hrow, hto⟩
        · left
          change Unrecorded s.db result.2
          rw [hsame]
          exact .refl _
        · refine Or.inr ⟨row, ?_, fun hmade => ?_⟩
          · change Recorded s.db (s.commit (approveSubmission s.db s.now actor id)).db row
            rw [hanswer]
            exact hrow
          · rw [hto] at hmade
            cases hmade
    | _ => exact absurd rfl hop

def audited : System State Op where
  init s := Initial s ∧ s.db.lockHistory = []
  step := lifecycle.step

def Db.lockRows (db : Db) (k : ClaimId) : List RewardLockHistory :=
  entriesOf (fun row : RewardLockHistory => row.claimId) db.lockHistory k

/-- The history is the log of the locks, and every lock in it was made at its tier. -/
structure Audit (s : State) : Prop where
  shared : lockMachine.Shared (fun row : RewardLockHistory => row.claimId) .opened
    s.db.lockHistory s.db.registers
  priced : ∀ row ∈ s.db.lockHistory, s.db.PricedRow row

variable {s s' : State}

theorem PricedRow.apply {row : RewardLockHistory} (op : Op) {r : Submission}
    {c : AssignmentClaim} {f : RewardFraction} (hr : s.db.submissions.get row.submissionId = some r)
    (hc : s.db.claims.get row.claimId = some c) (hrow : Priced row r c f) :
    ∃ r c f, (s.apply op).db.submissions.get row.submissionId = some r ∧
      (s.apply op).db.claims.get row.claimId = some c ∧ Priced row r c f := by
  obtain ⟨r', hr', hsub⟩ := (apply_effect s op).submission_move hr
  obtain ⟨c', hc', hmove⟩ := (apply_effect s op).claim_move hc
  refine ⟨r', c', f, hr', hc', ?_, ?_, hrow.tier, ?_⟩
  · rw [hsub.sameSubmission.claimId]
    exact hrow.claim
  · rw [hsub.sameSubmission.submittedAt, hmove.instants.2, hmove.sameClaim.graceDeadlineAt]
    exact hrow.ladder
  · rw [hmove.sameClaim.base]
    exact hrow.points

theorem audit_inductive : audited.Inductive Audit := by
  constructor
  · rintro s ⟨hinit, hempty⟩
    refine ⟨?_, fun row hrow => ?_⟩
    · rw [hempty]
      refine shared_nil fun k => ?_
      unfold Db.registers
      rw [hinit.claims, Table.get_empty]
      rfl
    · rw [hempty] at hrow
      cases hrow
  · rintro s op s' hs hstep
    obtain rfl : s' = s.apply op := hstep
    rcases apply_recorded s op with hquiet | ⟨row, hrow, hpriced⟩
    · refine ⟨?_, fun row hrow hmade => ?_⟩
      · rw [hquiet.history]
        exact hs.shared.quiet hquiet.registers
      · rw [hquiet.history] at hrow
        obtain ⟨r, c, f, hr, hc, hold⟩ := hs.priced row hrow hmade
        exact PricedRow.apply op hr hc hold
    · obtain ⟨c, c', hc, hclaims, hlock⟩ := hrow.moved
      have hbefore : s.db.registers row.claimId = some c.lockRegister := by
        unfold Db.registers
        rw [hc]
        rfl
      have hafter : (s.apply op).db.registers row.claimId = some c'.lockRegister := by
        unfold Db.registers
        rw [hclaims, Table.get_put_self]
        rfl
      have hothers : ∀ k, k ≠ row.claimId →
          (s.apply op).db.registers k = s.db.registers k := by
        intro k hk
        unfold Db.registers
        rw [hclaims, Table.get_put_of_ne _ _ hk]
      refine ⟨?_, fun row' hrow' hmade => ?_⟩
      · rw [hrow.history]
        exact hs.shared.append hbefore hlock hafter hothers
      · rw [hrow.history, List.mem_append, List.mem_singleton] at hrow'
        rcases hrow' with hold | rfl
        · obtain ⟨r, c, f, hr, hc, hpriced⟩ := hs.priced row' hold hmade
          exact PricedRow.apply op hr hc hpriced
        · obtain ⟨r, c, f, hr, hc, hpriced⟩ := hpriced hmade
          exact PricedRow.apply op hr hc hpriced

/-- A lock that is in force keeps its value until a state shows it cancelled. -/
theorem value_kept {k : ClaimId} {c : AssignmentClaim} {l : List (State × Op × State)}
    (hrun : audited.Run s l s') (hc : s.db.claims.get k = some c)
    (hlocked : c.rewardLockStatus.unlocked = false)
    (hvalid : ∀ e ∈ l, ∀ d, e.2.2.db.claims.get k = some d → d.rewardLockStatus ≠ .invalidated) :
    ∃ c', s'.db.claims.get k = some c' ∧ c'.rewardLockStatus.unlocked = false ∧
      c'.rewardTierLocked = c.rewardTierLocked ∧ c'.lockedRewardPoints = c.lockedRewardPoints := by
  induction hrun with
  | nil => exact ⟨c, hc, hlocked, rfl, rfl⟩
  | @snoc s₁ s₂ op l hrun hstep ih =>
    obtain ⟨c₁, hc₁, hlocked₁, htier, hpoints⟩ :=
      ih fun e he => hvalid e (List.mem_append_left _ he)
    obtain rfl : s₂ = s₁.apply op := hstep
    obtain ⟨c₂, hc₂, _⟩ := (apply_effect s₁ op).claim_move hc₁
    have hvalid₂ := hvalid _ (List.mem_append_right _ (List.mem_singleton_self _)) c₂ hc₂
    have hkept : c₂.lockRegister.status.unlocked = false ∧
        c₂.lockRegister.tier = c₁.lockRegister.tier ∧
        c₂.lockRegister.points = c₁.lockRegister.points := by
      have hregister₁ : s₁.db.registers k = some c₁.lockRegister := by
        unfold Db.registers
        rw [hc₁]
        rfl
      have hregister₂ : (s₁.apply op).db.registers k = some c₂.lockRegister := by
        unfold Db.registers
        rw [hc₂]
        rfl
      have hsame (h : (s₁.apply op).db.registers k = s₁.db.registers k) :
          c₂.lockRegister = c₁.lockRegister := by
        rw [hregister₁, hregister₂] at h
        exact Option.some.inj h
      rcases apply_recorded s₁ op with hquiet | ⟨row, hrow, _⟩
      · rcases hquiet.registers k with hkeep | ⟨hnone, _⟩
        · rw [hsame hkeep]
          exact ⟨hlocked₁, rfl, rfl⟩
        · rw [hregister₁] at hnone
          cases hnone
      · obtain ⟨d, d', hd, hclaims, hlock⟩ := hrow.moved
        by_cases hk : k = row.claimId
        · subst hk
          rw [hc₁] at hd
          cases hd
          rw [hclaims, Table.get_put_self] at hc₂
          cases hc₂
          exact hlock.keeps hlocked₁ hvalid₂
        · rw [hsame]
          · exact ⟨hlocked₁, rfl, rfl⟩
          · unfold Db.registers
            rw [hclaims, Table.get_put_of_ne _ _ hk]
    exact ⟨c₂, hc₂, hkept.1, hkept.2.1.trans htier, hkept.2.2.trans hpoints⟩

end Runs

theorem audited_run {s s' : State} {l : List (State × Op × State)} (h : lifecycle.Run s l s') :
    audited.Run s l s' := by
  induction h with
  | nil => exact .nil _
  | snoc _ hstep ih => exact .snoc ih hstep

theorem audited_opening (base : ℤ) (hbase : 0 < base) (ops : List Op) :
    audited.Reach ((opening base hbase).run ops) :=
  (audited_run (run_trace _ ops)).reach (.init ⟨opening_initial base hbase, rfl⟩)

/-- The points of a base reward are the exact floor of base times percentage over 100, between
nothing and the base, and fall with the submission instant. Over every run the rows of a claim
lead from no lock to the lock that the claim shows: each starts where the one before it ended,
and the claim shows the last one's status with its value, or no value after a cancelling row.
Every lock was made at the tier of its submission, and keeps its value until it is cancelled. -/
theorem reward_lock_history :
    (∀ (base : ℤ) (f : RewardFraction), BaseReward base →
      100 * decimalRewardPoints base f ≤ base * f.tierPercent ∧
        base * f.tierPercent < 100 * (decimalRewardPoints base f + 1) ∧
        0 ≤ decimalRewardPoints base f ∧ decimalRewardPoints base f ≤ base) ∧
    (∀ (deadline grace t t' : Instant) (f' : RewardFraction), t ≤ t' →
      rewardFraction t' deadline grace = .ok f' →
        ∃ f, rewardFraction t deadline grace = .ok f ∧ f'.tierPercent ≤ f.tierPercent ∧
          ∀ base, BaseReward base → decimalRewardPoints base f' ≤ decimalRewardPoints base f) ∧
    ∀ s, audited.Reach s →
      (∀ k c, s.db.claims.get k = some c →
        (s.db.lockRows k).IsChain Follows ∧
        (∀ row, (s.db.lockRows k).head? = some row → row.lockStatusFrom = .none) ∧
        (s.db.lockRows k = [] ∧ c.lockRegister = .opened ∨
          ∃ row, (s.db.lockRows k).getLast? = some row ∧ Shows c.lockRegister row)) ∧
      (∀ row ∈ s.db.lockHistory, s.db.PricedRow row) ∧
      ∀ l s', audited.Run s l s' → ∀ k c, s.db.claims.get k = some c →
        c.rewardLockStatus.unlocked = false →
          (∀ e ∈ l, ∀ d, e.2.2.db.claims.get k = some d → d.rewardLockStatus ≠ .invalidated) →
            ∃ c', s'.db.claims.get k = some c' ∧ c'.rewardLockStatus.unlocked = false ∧
              c'.rewardTierLocked = c.rewardTierLocked ∧
              c'.lockedRewardPoints = c.lockedRewardPoints := by
  refine ⟨fun base f hbase => ?_, fun deadline grace t t' f' hle hf' => ?_, fun s hs => ?_⟩
  · rw [decimalRewardPoints_eq hbase]
    obtain ⟨hfloor, habove, hmost⟩ := rewardPoints_floor hbase.1 f
    exact ⟨hfloor, habove, rewardPoints_nonneg hbase.1 f, hmost⟩
  · obtain ⟨f, hf, htier⟩ := rewardFraction_antitone hle hf'
    refine ⟨f, hf, htier, fun base hbase => ?_⟩
    rw [decimalRewardPoints_eq hbase, decimalRewardPoints_eq hbase]
    exact rewardPoints_mono hbase.1 htier
  · have haudit := audit_inductive.reach hs
    refine ⟨fun k c hc => ?_, haudit.priced, fun l s' hrun k c hc hlocked hvalid => ?_⟩
    · have hregister : s.db.registers k = some c.lockRegister := by
        unfold Db.registers
        rw [hc]
        rfl
      have hlogged : lockMachine.Logged .opened (s.db.lockRows k) c.lockRegister :=
        haudit.shared.logged hregister
      refine ⟨hlogged.isChain fun _ _ _ _ _ hstep hnext => LockStep.follows hstep hnext,
        fun row hrow => ?_, ?_⟩
      · obtain ⟨_, hstep⟩ := hlogged.head hrow
        exact LockStep.starts hstep
      · rcases hlogged.getLast with ⟨hnone, hopened⟩ | ⟨row, _, hrow, hstep⟩
        · exact Or.inl ⟨List.getLast?_eq_none_iff.mp hnone, hopened⟩
        · exact Or.inr ⟨row, hrow, LockStep.shown hstep⟩
    · exact value_kept hrun hc hlocked hvalid

def lockedInTime : List Op :=
  .claim 7 1 1 (some 1) :: .tick (hours 100) :: submits 1 [1] ++
    [.startValidation 1 1, .finishValidation 1 passing none, .onValidationPassed 1]

/-- Its lock is cancelled, and the next submission is two hours late. -/
def relocked : List Op :=
  lockedInTime ++ .invalidate ⟨9, .teacher⟩ 1 (some ['x']) :: .tick (hours 170) :: submits 1 [2] ++
    [.startValidation 2 2, .finishValidation 2 passing none, .onValidationPassed 2,
      .approve ⟨9, .teacher⟩ 2]

theorem reward_lock_history_relocked :
    decimalRewardPoints 101 .early ≤ 101 ∧
      (∃ f, rewardFraction 3 5 9 = .ok f ∧ RewardFraction.tierPercent .early ≤ f.tierPercent) ∧
      (((opening 50 base_pos).run relocked).db.lockRows 1).map
        (fun row => (row.lockStatusTo, row.lockedRewardPoints)) =
          [(.provisional, some 50), (.invalidated, some 50), (.provisional, some 40),
            (.confirmed, some 40)] ∧
      (((opening 50 base_pos).run relocked).db.lockRows 1).IsChain Follows ∧
      let s := (opening 50 base_pos).run lockedInTime
      ∃ c c', s.db.claims.get 1 = some c ∧
        (s.apply (.requireRevision ⟨9, .teacher⟩ 1 none)).db.claims.get 1 = some c' ∧
          c'.lockedRewardPoints = c.lockedRewardPoints := by
  obtain ⟨hpoints, hladder, hruns⟩ := reward_lock_history
  obtain ⟨f, hf, hfalls, _⟩ := hladder 5 9 3 6 .early (by decide) (by decide)
  refine ⟨(hpoints 101 .early ⟨by decide, by decide⟩).2.2.2, ⟨f, hf, hfalls⟩,
    by decide +kernel, ?_, ?_⟩
  · have hheld : (((opening 50 base_pos).run relocked).db.claims.get 1).isSome = true := by
      decide +kernel
    obtain ⟨c, hc⟩ := Option.isSome_iff_exists.mp hheld
    exact ((hruns _ (audited_opening 50 base_pos relocked)).1 1 c hc).1
  · have hlocked : (((opening 50 base_pos).run lockedInTime).db.claims.get 1).map
        (fun c => c.rewardLockStatus.unlocked) = some false := by decide +kernel
    have hvalid : ((((opening 50 base_pos).run lockedInTime).apply
        (.requireRevision ⟨9, .teacher⟩ 1 none)).db.claims.get 1).all
          (fun c => c.rewardLockStatus ≠ .invalidated) = true := by decide +kernel
    obtain ⟨c, hc, hunlocked⟩ := Option.map_eq_some_iff.mp hlocked
    have hrun := audited_run (run_trace ((opening 50 base_pos).run lockedInTime)
      [.requireRevision ⟨9, .teacher⟩ 1 none])
    obtain ⟨c', hc', _, _, hkept⟩ := (hruns _ (audited_opening 50 base_pos lockedInTime)).2.2 _ _
      hrun 1 c hc hunlocked fun e he d hd => by
        obtain rfl := List.mem_singleton.mp he
        rw [Option.all_eq_true] at hvalid
        exact of_decide_eq_true (hvalid d hd)
    exact ⟨c, c', hc, hc', hkept⟩

/-- A cancelling row keeps the value that the claim no longer shows. -/
theorem cancelled_value_hidden :
    ¬ ∀ s, audited.Reach s → ∀ k c row, s.db.claims.get k = some c →
      (s.db.lockRows k).getLast? = some row →
        c.rewardLockStatus = row.lockStatusTo ∧ c.rewardTierLocked = row.rewardTierLocked ∧
          c.lockedRewardPoints = row.lockedRewardPoints := by
  intro h
  let ops := lockedInTime ++ [.invalidate ⟨9, .teacher⟩ 1 (some ['x'])]
  have hshown : (((opening 50 base_pos).run ops).db.claims.get 1).map
      (fun c => c.lockedRewardPoints) = some none := by decide +kernel
  have hrow : (((opening 50 base_pos).run ops).db.lockRows 1).getLast?.map
      (fun row => row.lockedRewardPoints) = some (some 50) := by decide +kernel
  obtain ⟨c, hc, hnone⟩ := Option.map_eq_some_iff.mp hshown
  obtain ⟨row, hlast, hfifty⟩ := Option.map_eq_some_iff.mp hrow
  have hequal := (h _ (audited_opening 50 base_pos ops) 1 c row hc hlast).2.2
  rw [hnone, hfifty] at hequal
  cases hequal

end CampusQuest.Lifecycle
