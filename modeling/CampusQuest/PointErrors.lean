import CampusQuest.PointStatements

/-!
The errors of the points services. A business error has a code, an HTTP status and a text;
a broken invariant, a configuration failure or a database violation that nothing catches
is answered as an internal error.
-/

namespace CampusQuest.Points

open Transactions

inductive EntryField
  | amount
  | reason
  | rankingEffectiveAt
  | sourceId
  | claimId
  deriving DecidableEq, Repr

inductive ItemField
  | changes
  | name
  | pointCost
  | stock
  | perUserTermLimit
  | availableFrom
  deriving DecidableEq, Repr

inductive PointsError
  | invalidLedgerEntry (field : EntryField) (message : String)
  | reversalPermissionDenied (actorId : UserId) (role : Role)
  | reversalReasonRequired (ledgerId : LedgerId)
  | ledgerEntryNotFound (ledgerId : LedgerId)
  | ledgerEntryNotReversible (ledgerId : LedgerId) (ledgerType : LedgerType)
  | rewardAlreadyReversed (ledgerId : LedgerId) (sourceId : ℕ) (reversalLedgerId : LedgerId)
  | adminPermissionDenied
  | adminReasonRequired
  | adjustmentTargetNotFound (userId : UserId)
  | adjustmentOperationConflict (operationId : OperationId)
  | rewardItemValidation (field : ItemField) (message : String)
  | rewardItemNotFound (item : ItemId)
  | rewardItemDisabled (item : ItemId)
  | redemptionWindowClosed (item : ItemId) (availableFrom availableUntil : Option Instant)
  | rewardOutOfStock (item : ItemId) (stock : ℤ)
  | redemptionLimitReached (item : ItemId) (limit : ℤ) (termKey : Text)
  | insufficientPoints (required spendable : ℤ)
  | academicTermConfiguration (termKey : Text)
  | redemptionPermissionDenied (actorId : UserId) (role : Role)
  | rejectReasonRequired (redemption : RedemptionId)
  | redemptionNotFound (redemption : RedemptionId)
  | redemptionNotReviewable (redemption : RedemptionId) (status : RedemptionStatus)
  | redemptionNotFulfillable (redemption : RedemptionId) (status : RedemptionStatus)
  | reservationMissing (redemption : RedemptionId)
  | assertionFailed
  | integrityError (key : LockKey)
  deriving DecidableEq

def PointsError.code : PointsError → ErrorCode
  | .reversalPermissionDenied _ _ | .adminPermissionDenied
  | .redemptionPermissionDenied _ _ => .permissionDenied
  | .ledgerEntryNotFound _ | .adjustmentTargetNotFound _ | .rewardItemNotFound _
  | .redemptionNotFound _ => .notFound
  | .adjustmentOperationConflict _ => .conflict
  | .rewardOutOfStock _ _ => .rewardOutOfStock
  | .redemptionLimitReached _ _ _ => .redemptionLimitReached
  | .insufficientPoints _ _ => .insufficientPoints
  | .academicTermConfiguration _ | .reservationMissing _ | .assertionFailed
  | .integrityError _ => .internalError
  | _ => .validationError

def PointsError.statusCode : PointsError → ℕ
  | .reversalPermissionDenied _ _ | .adminPermissionDenied
  | .redemptionPermissionDenied _ _ => 403
  | .ledgerEntryNotFound _ | .adjustmentTargetNotFound _ | .rewardItemNotFound _
  | .redemptionNotFound _ => 404
  | .adjustmentOperationConflict _ | .rewardOutOfStock _ _ | .redemptionLimitReached _ _ _
  | .insufficientPoints _ _ | .rewardAlreadyReversed _ _ _ | .redemptionNotReviewable _ _
  | .redemptionNotFulfillable _ _ => 409
  | .academicTermConfiguration _ | .reservationMissing _ | .assertionFailed
  | .integrityError _ => 500
  | .adminReasonRequired => 400
  | _ => 422

def PointsError.message : PointsError → String
  | .invalidLedgerEntry _ message => message
  | .reversalPermissionDenied _ _ => "只有管理员可以冲销任务奖励"
  | .reversalReasonRequired _ => "冲销任务奖励必须填写原因"
  | .ledgerEntryNotFound _ => "积分流水不存在"
  | .ledgerEntryNotReversible _ _ => "只有任务奖励流水可以被冲销"
  | .rewardAlreadyReversed _ _ _ => "该任务奖励已被冲销"
  | .adminPermissionDenied => "只有管理员可以管理奖品目录、审阅授权与积分调整"
  | .adminReasonRequired => "必须填写操作原因"
  | .adjustmentTargetNotFound _ => "积分调整目标账号不存在"
  | .adjustmentOperationConflict _ => "该操作 ID 已用于不同的积分调整"
  | .rewardItemValidation _ message => message
  | .rewardItemNotFound _ => "兑换奖品不存在"
  | .rewardItemDisabled _ => "该奖品当前不可兑换"
  | .redemptionWindowClosed _ _ _ => "该奖品不在可兑换时间窗口内"
  | .rewardOutOfStock _ _ => "该奖品库存不足"
  | .redemptionLimitReached _ _ _ => "已达到该奖品本学期的兑换上限"
  | .insufficientPoints _ _ => "可用积分不足"
  | .redemptionPermissionDenied _ _ => "只有管理员或获得兑换审阅授权的教师可以审核与发放兑换"
  | .rejectReasonRequired _ => "拒绝兑换申请必须填写原因"
  | .redemptionNotFound _ => "兑换申请不存在"
  | .redemptionNotReviewable _ _ => "该兑换申请已处于终态，无法执行该操作"
  | .redemptionNotFulfillable _ _ => "只有已批准的兑换申请可以发放"
  | .academicTermConfiguration _ | .reservationMissing _ | .assertionFailed
  | .integrityError _ => "INTERNAL_ERROR"

abbrev PointsTxn (α : Type) := Txn statements PointsError α

def ask (q : Query) : PointsTxn q.Answer := .ask q .done

def lock (k : LockKey) : PointsTxn Unit := .lock k (.done ())

def write (w : Write) : PointsTxn Unit := .write w (.done ())

/-- An INSERT. A unique violation that no savepoint catches surfaces as it is. -/
def insert (w : Write) : PointsTxn Unit := .insert w (.integrityError w.row) (.done ())

def refuse {α : Type} (e : PointsError) : PointsTxn α := .raise e

section Ends

variable {α β : Type} {db : PointsDb} {p p' : Pending statements} {r : Except PointsError α}

theorem ends_ask {q : Query} {f : q.Answer → PointsTxn α} :
    (ask q >>= f).Ends locking db p r p' ↔
      ∃ a, q.Retained (fun k => k ∈ p.locks) (fun k => k ∈ p.seen) (p.view db) a ∧
        (f a).Ends locking db p r p' :=
  Iff.rfl

theorem ends_lock {k : LockKey} {f : Unit → PointsTxn α} :
    (lock k >>= f).Ends locking db p r p' ↔ (f ()).Ends locking db (p.hold k) r p' :=
  Iff.rfl

theorem ends_write {w : Write} {f : Unit → PointsTxn α} :
    (write w >>= f).Ends locking db p r p' ↔ (f ()).Ends locking db (p.add w) r p' :=
  Iff.rfl

theorem ends_insert {w : Write} {f : Unit → PointsTxn α} :
    (insert w >>= f).Ends locking db p r p' ↔
      (¬ w.row.taken (p.view db) = true ∧ (f ()).Ends locking db (p.add w) r p') ∨
        (w.row.taken (p.view db) = true ∧
          (p.catches = some w.row → ¬ w.row.taken db = true) ∧
          r = .error (.integrityError w.row) ∧ p' = p) :=
  Iff.rfl

theorem ends_pure {a : α} :
    (pure a : PointsTxn α).Ends locking db p r p' ↔ r = .ok a ∧ p' = p :=
  Iff.rfl

theorem ends_refuse {e : PointsError} :
    (refuse e : PointsTxn α).Ends locking db p r p' ↔ r = .error e ∧ p' = p :=
  Iff.rfl

/-- A sequence ends as its first part ends and then its second, unless the first raises. -/
theorem ends_seq {t : PointsTxn β} {f : β → PointsTxn α} :
    (t >>= f).Ends locking db p r p' ↔
      (∃ b p₁, t.Ends locking db p (.ok b) p₁ ∧ (f b).Ends locking db p₁ r p') ∨
        ∃ e, t.Ends locking db p (.error e) p' ∧ r = .error e :=
  Txn.ends_bind

/-- A sequence that succeeds has succeeded in both parts. -/
theorem ends_seq_ok {t : PointsTxn β} {f : β → PointsTxn α} {a : α}
    (h : (t >>= f).Ends locking db p (.ok a) p') :
    ∃ b p₁, t.Ends locking db p (.ok b) p₁ ∧ (f b).Ends locking db p₁ (.ok a) p' := by
  rcases ends_seq.mp h with hok | ⟨e, _, he⟩
  · exact hok
  · cases he

/-- An insert that succeeds found its key free. -/
theorem ends_insert_ok {w : Write} {f : Unit → PointsTxn α} {a : α}
    (h : (insert w >>= f).Ends locking db p (.ok a) p') :
    ¬ w.row.taken (p.view db) = true ∧ (f ()).Ends locking db (p.add w) (.ok a) p' := by
  rcases ends_insert.mp h with hok | ⟨_, _, he, _⟩
  · exact hok
  · cases he

theorem refuse_ends_ok {e : PointsError} {a : α}
    (h : (refuse e : PointsTxn α).Ends locking db p (.ok a) p') : False := by
  cases (ends_refuse.mp h).1

end Ends

/-- What a part of a transaction adds to it: it keeps the locks, and every new write is one
of the allowed ones. -/
structure Extends (allowed : Write → Prop) (p p' : Pending statements) : Prop where
  locks : ∀ k ∈ p.locks, k ∈ p'.locks
  writes : ∀ w ∈ p'.writes, w ∈ p.writes ∨ allowed w

namespace Extends

variable {allowed : Write → Prop} {p p' p'' : Pending statements}

theorem refl : Extends allowed p p := ⟨fun _ hk => hk, fun _ hw => Or.inl hw⟩

theorem trans (h : Extends allowed p p') (h' : Extends allowed p' p'') :
    Extends allowed p p'' := by
  refine ⟨fun k hk => h'.locks k (h.locks k hk), fun w hw => ?_⟩
  rcases h'.writes w hw with hold | hnew
  · exact h.writes w hold
  · exact Or.inr hnew

theorem hold (k : LockKey) : Extends allowed p (p.hold k) :=
  ⟨fun _ hk => List.mem_cons_of_mem _ hk, fun _ hw => Or.inl hw⟩

theorem add {w : Write} (h : allowed w) : Extends allowed p (p.add w) := by
  refine ⟨fun _ hk => List.mem_cons_of_mem _ hk, fun w' hw => ?_⟩
  rcases List.mem_append.mp hw with hold | hnew
  · exact Or.inl hold
  · rw [List.mem_singleton.mp hnew]
    exact Or.inr h

theorem mono {allowed' : Write → Prop} (h : Extends allowed p p')
    (himp : ∀ w, allowed w → allowed' w) : Extends allowed' p p' :=
  ⟨h.locks, fun w hw => (h.writes w hw).imp id (himp w)⟩

end Extends

end CampusQuest.Points
