import CampusQuest.Ledger

/-!
The administration of points: manual adjustments, idempotent by their operation id, and
the catalogue of reward items, whose edits take the item lock and are validated as a
whole before anything is written.
-/

namespace CampusQuest.Points

open Tables Transactions

def adjustmentId (operation : OperationId) : LedgerId :=
  ⟨.adminAdjustment, operation, .adminAdjustment⟩

def adjustmentCommand (user : UserId) (amount : ℤ) (operation : OperationId) (operator : UserId)
    (reason : Text) : PostLedgerEntry where
  userId := user
  ledgerType := .adminAdjustment
  amount := amount
  sourceType := .adminAdjustment
  sourceId := some operation
  affectsBalance := true
  affectsRanking := false
  operatorId := some operator
  reason := some reason

/-- `_replayed_adjustment`: the same user, amount and reason answer with the original row,
anything else is a conflict. -/
def replayedAdjustment (existing : PointsLedger) (operation : OperationId) (user : UserId)
    (amount : ℤ) (reason : Text) : Except PointsError PointsLedger :=
  if existing.userId = user ∧ existing.amount = amount ∧ existing.reason.getD [] = reason then
    .ok existing
  else .error (.adjustmentOperationConflict operation)

/-- The answer to the caller is a value here, since the loser of a race commits, which
releases the wallet lock, before it answers. -/
def adminAdjustPoints (actor : Actor) (user : UserId) (amount : ℤ) (reason : Option Text)
    (operation : OperationId) : PointsTxn (Except PointsError PointsLedger) :=
  let text := strippedReason reason
  if isAdmin actor.role = false then refuse .adminPermissionDenied
  else if text = [] then refuse .adminReasonRequired
  else if amount = 0 then refuse (.invalidLedgerEntry .amount "积分流水金额必须是非零整数")
  else do
    match ← ask (.entry (adjustmentId operation)) with
    | some existing =>
      match replayedAdjustment existing operation user amount text with
      | .ok e => return .ok e
      | .error e => refuse e
    | none => do
      match ← ask (.role user) with
      | none => refuse (.adjustmentTargetNotFound user)
      | some _ => do
        let _ ← lockedOrCreatedWallet user
        Txn.nested (.entry (adjustmentId operation))
          (do
            match ← ask (.entry (adjustmentId operation)) with
            | some winner => return replayedAdjustment winner operation user amount text
            | none => refuse (.integrityError (.entry (adjustmentId operation))))
          (do
            let e ← postEntry (adjustmentCommand user amount operation actor.userId text)
            return .ok e)

structure CatalogShape where
  name : Text
  pointCost : ℤ
  stock : Option ℤ
  perUserTermLimit : Option ℤ
  availableFrom : Option Instant
  availableUntil : Option Instant

def itemShapeMessage : String := "奖品配置不合法"

def CatalogShape.degenerateWindow (s : CatalogShape) : Bool :=
  match s.availableFrom, s.availableUntil with
  | some a, some b => decide (b ≤ a)
  | _, _ => false

def validateCatalogShape (s : CatalogShape) : Option PointsError :=
  if strip s.name = [] then some (.rewardItemValidation .name itemShapeMessage)
  else if s.pointCost ≤ 0 then some (.rewardItemValidation .pointCost itemShapeMessage)
  else if s.stock.any (· < 0) = true then some (.rewardItemValidation .stock itemShapeMessage)
  else if s.perUserTermLimit.any (· < 0) = true then
    some (.rewardItemValidation .perUserTermLimit itemShapeMessage)
  else if s.degenerateWindow = true then
    some (.rewardItemValidation .availableFrom itemShapeMessage)
  else none

/-- A valid shape satisfies every CHECK of the item table. -/
theorem validateCatalogShape_none {s : CatalogShape} (h : validateCatalogShape s = none) :
    0 < s.pointCost ∧ (∀ n, s.stock = some n → 0 ≤ n) ∧
      (∀ n, s.perUserTermLimit = some n → 0 ≤ n) ∧
      ∀ a b, s.availableFrom = some a → s.availableUntil = some b → a < b := by
  unfold validateCatalogShape at h
  split_ifs at h with hname hcost hstock hlimit hwindow
  refine ⟨by omega, fun n hn => ?_, fun n hn => ?_, fun a b ha hb => ?_⟩
  · simpa [hn] using hstock
  · simpa [hn] using hlimit
  · simpa [CatalogShape.degenerateWindow, ha, hb] using hwindow

def CatalogShape.toItem (s : CatalogShape) (h : validateCatalogShape s = none)
    (name : Text) (enabled : Bool) (description : Option Text) (requiresManualReview : Bool)
    (fulfillmentInstructions : Option Text) : RewardItem where
  name
  description
  pointCost := s.pointCost
  stock := s.stock
  perUserTermLimit := s.perUserTermLimit
  availableFrom := s.availableFrom
  availableUntil := s.availableUntil
  enabled
  requiresManualReview
  fulfillmentInstructions
  point_cost := (validateCatalogShape_none h).1
  stock_nonneg := (validateCatalogShape_none h).2.1
  per_user_term_limit := (validateCatalogShape_none h).2.2.1
  window_ordering := (validateCatalogShape_none h).2.2.2

/-- `id` is the id the server generates for the new item. -/
def createRewardItem (actor : Actor) (id : ItemId) (shape : CatalogShape)
    (description : Option Text) (requiresManualReview : Bool)
    (fulfillmentInstructions : Option Text) : PointsTxn RewardItem :=
  if isAdmin actor.role = false then refuse .adminPermissionDenied
  else match h : validateCatalogShape shape with
  | some e => refuse e
  | none => do
    let item := shape.toItem h (strip shape.name) true description requiresManualReview
      fulfillmentInstructions
    insert (.item id item)
    return item

/-- A partial update; a field that is not provided is left as it is. -/
structure RewardItemChanges where
  name : Option Text := none
  description : Option (Option Text) := none
  pointCost : Option ℤ := none
  stock : Option (Option ℤ) := none
  perUserTermLimit : Option (Option ℤ) := none
  availableFrom : Option (Option Instant) := none
  availableUntil : Option (Option Instant) := none
  requiresManualReview : Option Bool := none
  fulfillmentInstructions : Option (Option Text) := none
  deriving DecidableEq

/-- The row as it would be after the update, validated before it is touched. -/
def RewardItemChanges.merged (changes : RewardItemChanges) (item : RewardItem) : CatalogShape where
  name := changes.name.getD item.name
  pointCost := changes.pointCost.getD item.pointCost
  stock := changes.stock.getD item.stock
  perUserTermLimit := changes.perUserTermLimit.getD item.perUserTermLimit
  availableFrom := changes.availableFrom.getD item.availableFrom
  availableUntil := changes.availableUntil.getD item.availableUntil

def updateRewardItem (actor : Actor) (id : ItemId) (changes : RewardItemChanges) :
    PointsTxn RewardItem :=
  if isAdmin actor.role = false then refuse .adminPermissionDenied
  else if changes = {} then
    refuse (.rewardItemValidation .changes "没有提供任何要修改的字段")
  else do
    lock (.item id)
    match ← ask (.item id) with
    | none => refuse (.rewardItemNotFound id)
    | some item =>
      match h : validateCatalogShape (changes.merged item) with
      | some e => refuse e
      | none => do
        let updated := (changes.merged item).toItem h (changes.merged item).name item.enabled
          (changes.description.getD item.description)
          (changes.requiresManualReview.getD item.requiresManualReview)
          (changes.fulfillmentInstructions.getD item.fulfillmentInstructions)
        write (.item id updated)
        return updated

def disableRewardItem (actor : Actor) (id : ItemId) (reason : Option Text) :
    PointsTxn RewardItem :=
  if isAdmin actor.role = false then refuse .adminPermissionDenied
  else if strippedReason reason = [] then refuse .adminReasonRequired
  else do
    lock (.item id)
    match ← ask (.item id) with
    | none => refuse (.rewardItemNotFound id)
    | some item =>
      if item.enabled = false then return item
      else do
        write (.item id { item with enabled := false })
        return { item with enabled := false }

section Outcomes

variable {db : PointsDb} {p p' : Pending statements}

theorem validate_adjustmentCommand (user : UserId) {amount : ℤ} (operation : OperationId)
    (operator : UserId) {reason : Text} (hreason : strip reason ≠ []) (hamount : amount ≠ 0) :
    validate (adjustmentCommand user amount operation operator reason) = none := by
  simp [validate, adjustmentCommand, strippedReason, hamount, hreason]

def adjustmentRow (user : UserId) (amount : ℤ) (operation : OperationId) (operator : UserId)
    (reason : Text) (hreason : strip reason ≠ []) (hamount : amount ≠ 0) : PointsLedger :=
  (adjustmentCommand user amount operation operator reason).toRow 0
    (validate_adjustmentCommand user operation operator hreason hamount)

/-- What a committed adjustment answers and writes: a replay answers from the row that is
there and writes at most an empty wallet, and otherwise the adjustment is posted. -/
theorem adminAdjustPoints_ends {actor : Actor} {user : UserId} {amount : ℤ}
    {reason : Option Text} {operation : OperationId} {answer : Except PointsError PointsLedger}
    (h : (adminAdjustPoints actor user amount reason operation).Ends locking db .start
      (.ok answer) p') :
    ((∃ existing, db.ledger.get (adjustmentId operation) = some existing ∧
        answer = replayedAdjustment existing operation user amount (strippedReason reason)) ∧
      (p'.view db = db ∨ p'.view db = db.openWallet user) ∧
      Extends (fun w => ∃ row, w = .wallet user row) .start p') ∨
    ∃ (hreason : strip (strippedReason reason) ≠ []) (hamount : amount ≠ 0),
      db.ledger.get (adjustmentId operation) = none ∧
      answer = .ok (adjustmentRow user amount operation actor.userId (strippedReason reason)
        hreason hamount) ∧
      p'.view db = db.post (adjustmentRow user amount operation actor.userId
        (strippedReason reason) hreason hamount) ∧
      Extends (Posting (adjustmentRow user amount operation actor.userId (strippedReason reason)
        hreason hamount)) .start p' := by
  unfold adminAdjustPoints at h
  dsimp only at h
  split at h
  next => exact absurd h refuse_ends_ok
  next =>
  split at h
  next => exact absurd h refuse_ends_ok
  next htext =>
  split at h
  next => exact absurd h refuse_ends_ok
  next hamount =>
  have hreason : strip (strippedReason reason) ≠ [] := by
    rw [strip_strippedReason]
    exact htext
  rw [ends_ask] at h
  obtain ⟨a, ⟨hfound, _⟩, h⟩ := h
  cases a with
  | some existing =>
    dsimp only at h
    split at h
    next e he =>
      obtain ⟨hanswer, rfl⟩ := ends_pure.mp h
      cases hanswer
      exact Or.inl ⟨⟨existing, hfound existing rfl, he.symm⟩, Or.inl rfl, Extends.refl⟩
    next => exact absurd h refuse_ends_ok
  | none =>
    rw [ends_ask] at h
    obtain ⟨role, _, h⟩ := h
    cases role with
    | none => exact absurd h refuse_ends_ok
    | some _ =>
      obtain ⟨_, p₁, hwallet, h⟩ := ends_seq_ok h
      obtain ⟨_, hview, _, _, hext⟩ := lockedOrCreatedWallet_ends hwallet
      rw [Pending.view_start] at hview
      have hledger : (p₁.view db).ledger = db.ledger := by
        rw [hview, PointsDb.openWallet_ledger]
      rcases Txn.ends_nested h with ⟨p₂, hbody, hp'⟩ | ⟨_, hhandler⟩
      · obtain ⟨e, p₃, hpost, hdone⟩ := ends_seq_ok hbody
        obtain ⟨hvalid, he, hfree, hposted, hext'⟩ := postEntry_ends_ok hpost
        obtain ⟨hanswer, rfl⟩ := ends_pure.mp hdone
        cases hanswer
        have he : e = adjustmentRow user amount operation actor.userId (strippedReason reason)
          hreason hamount := he
        subst he
        rw [Pending.view_enter, hledger] at hfree
        rw [Pending.view_enter, hview] at hposted
        have hopen : (db.openWallet user).post (adjustmentRow user amount operation actor.userId
            (strippedReason reason) hreason hamount) = db.post (adjustmentRow user amount
            operation actor.userId (strippedReason reason) hreason hamount) :=
          PointsDb.openWallet_post db (e := adjustmentRow user amount operation actor.userId
            (strippedReason reason) hreason hamount) (Or.inl rfl)
        have hextends : Extends (Posting (adjustmentRow user amount operation actor.userId
            (strippedReason reason) hreason hamount)) .start p₂ :=
          (hext.mono fun w hw => Or.inr hw).trans ⟨hext'.locks, hext'.writes⟩
        refine Or.inr ⟨hreason, hamount, hfree, rfl, ?_, ?_⟩
        · rw [← hopen, ← hposted]
          rcases hp' with rfl | rfl
          · rfl
          · rfl
        · rcases hp' with rfl | rfl
          · exact hextends
          · exact ⟨hextends.locks, hextends.writes⟩
      · rw [ends_ask] at hhandler
        obtain ⟨b, ⟨hwinner, _⟩, hhandler⟩ := hhandler
        rw [Pending.view_recover, hledger] at hwinner
        cases b with
        | none => exact absurd hhandler refuse_ends_ok
        | some winner =>
          obtain ⟨hanswer, rfl⟩ := ends_pure.mp hhandler
          cases hanswer
          refine Or.inl ⟨⟨winner, hwinner winner rfl, rfl⟩, Or.inr hview, ?_⟩
          exact ⟨hext.locks, hext.writes⟩

def ItemWrite (db : PointsDb) (id : ItemId) (p' : Pending statements) : Prop :=
  ∃ row, p'.view db = { db with items := db.items.put id row } ∧
    Extends (fun w => w = .item id row) .start p'

theorem createRewardItem_ends {actor : Actor} {id : ItemId} {shape : CatalogShape}
    {description : Option Text} {review : Bool} {instructions : Option Text} {row : RewardItem}
    (h : (createRewardItem actor id shape description review instructions).Ends locking db .start
      (.ok row) p') : ItemWrite db id p' := by
  unfold createRewardItem at h
  split at h
  next => exact absurd h refuse_ends_ok
  next =>
  split at h
  next => exact absurd h refuse_ends_ok
  next hshape =>
    obtain ⟨_, h⟩ := ends_insert_ok h
    obtain ⟨_, rfl⟩ := ends_pure.mp h
    refine ⟨_, ?_, Extends.add rfl⟩
    rw [Pending.view_add]
    rfl

theorem updateRewardItem_ends {actor : Actor} {id : ItemId} {changes : RewardItemChanges}
    {row : RewardItem}
    (h : (updateRewardItem actor id changes).Ends locking db .start (.ok row) p') :
    ItemWrite db id p' := by
  unfold updateRewardItem at h
  split at h
  next => exact absurd h refuse_ends_ok
  next =>
  split at h
  next => exact absurd h refuse_ends_ok
  next =>
  rw [ends_lock, ends_ask] at h
  obtain ⟨a, _, h⟩ := h
  cases a with
  | none => exact absurd h refuse_ends_ok
  | some item =>
    dsimp only at h
    split at h
    next => exact absurd h refuse_ends_ok
    next hshape =>
      rw [ends_write] at h
      obtain ⟨_, rfl⟩ := ends_pure.mp h
      refine ⟨_, ?_, (Extends.hold (.item id)).trans (Extends.add rfl)⟩
      rw [Pending.view_add]
      rfl

theorem disableRewardItem_ends {actor : Actor} {id : ItemId} {reason : Option Text}
    {row : RewardItem}
    (h : (disableRewardItem actor id reason).Ends locking db .start (.ok row) p') :
    p'.writes = [] ∨ ItemWrite db id p' := by
  unfold disableRewardItem at h
  split at h
  next => exact absurd h refuse_ends_ok
  next =>
  split at h
  next => exact absurd h refuse_ends_ok
  next =>
  rw [ends_lock, ends_ask] at h
  obtain ⟨a, _, h⟩ := h
  cases a with
  | none => exact absurd h refuse_ends_ok
  | some item =>
    dsimp only at h
    split at h
    next =>
      obtain ⟨_, rfl⟩ := ends_pure.mp h
      exact Or.inl rfl
    next =>
      rw [ends_write] at h
      obtain ⟨_, rfl⟩ := ends_pure.mp h
      refine Or.inr ⟨_, ?_, (Extends.hold (.item id)).trans (Extends.add rfl)⟩
      rw [Pending.view_add]
      rfl

end Outcomes

end CampusQuest.Points
