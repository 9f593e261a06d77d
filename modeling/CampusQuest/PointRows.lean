import CampusQuest.Tables
import CampusQuest.Vocabulary

/-!
Rows of the points module. The ledger is append-only and a wallet is its projection; a
reservation freezes the points of one redemption. Each row carries the table's CHECK
constraints. A ledger row is addressed by its source triple, which is unique, and a
reservation by its redemption, of which it is the only one.
-/

namespace CampusQuest.Points

open Tables

inductive LedgerType
  | assignmentReward
  | assignmentRewardReversal
  | rewardRedemption
  | rewardRedemptionRefund
  | adminAdjustment
  deriving DecidableEq, Repr

inductive SourceType
  | assignmentClaim
  | rewardRedemption
  | adminAdjustment
  deriving DecidableEq, Repr

structure SourceTriple where
  sourceType : SourceType
  sourceId : ℕ
  ledgerType : LedgerType
  deriving DecidableEq, Repr

abbrev LedgerId := SourceTriple

structure PointsLedger where
  userId : UserId
  ledgerType : LedgerType
  amount : ℤ
  sourceType : SourceType
  sourceId : ℕ
  affectsBalance : Bool
  affectsRanking : Bool
  rankingEffectiveAt : Option Instant
  reversalOfId : Option LedgerId
  operatorId : Option UserId
  reason : Option Text
  amount_ne_zero : amount ≠ 0
  ranking_effective_required : affectsRanking = true → rankingEffectiveAt ≠ none
  admin_reason_required : ledgerType = .adminAdjustment → reason ≠ none
  deriving DecidableEq

def PointsLedger.triple (e : PointsLedger) : SourceTriple :=
  ⟨e.sourceType, e.sourceId, e.ledgerType⟩

structure PointWallet where
  availablePoints : ℤ
  earnedPoints : ℤ
  earned_points : 0 ≤ earnedPoints

def PointWallet.zero : PointWallet := ⟨0, 0, le_rfl⟩

structure RewardItem where
  name : Text
  description : Option Text
  pointCost : ℤ
  stock : Option ℤ
  perUserTermLimit : Option ℤ
  availableFrom : Option Instant
  availableUntil : Option Instant
  enabled : Bool
  requiresManualReview : Bool
  fulfillmentInstructions : Option Text
  point_cost : 0 < pointCost
  stock_nonneg : ∀ n, stock = some n → 0 ≤ n
  per_user_term_limit : ∀ n, perUserTermLimit = some n → 0 ≤ n
  window_ordering : ∀ a b, availableFrom = some a → availableUntil = some b → a < b

inductive RedemptionStatus
  | requested
  | underReview
  | approved
  | fulfilled
  | rejected
  deriving DecidableEq, Repr

structure RewardRedemption where
  userId : UserId
  rewardItemId : ItemId
  status : RedemptionStatus
  termKey : Text
  points : ℤ
  decidedAt : Option Instant
  decidedBy : Option UserId
  rejectionReason : Option Text
  fulfilledAt : Option Instant
  fulfillmentNote : Option Text
  points_pos : 0 < points

inductive ReservationStatus
  | active
  | released
  | consumed
  deriving DecidableEq, Repr

structure PointReservation where
  userId : UserId
  redemptionId : RedemptionId
  points : ℤ
  status : ReservationStatus
  releasedAt : Option Instant
  points_pos : 0 < points
  release_coherence : status = .active ↔ releasedAt = none

/-- The points tables, with the accounts they refer to. A row of `reviewGrants`
is a live REWARD_REVIEW grant of a teacher. -/
structure PointsDb where
  roles : Table UserId Role
  wallets : Table UserId PointWallet
  ledger : Table LedgerId PointsLedger
  items : Table ItemId RewardItem
  redemptions : Table RedemptionId RewardRedemption
  reservations : Table RedemptionId PointReservation
  reviewGrants : Table UserId Unit

/-- The statuses that hold a stock unit and a term slot (`_OCCUPYING_STATUSES`). -/
def RedemptionStatus.occupying : RedemptionStatus → Bool
  | .requested | .underReview | .approved | .fulfilled => true
  | .rejected => false

def RewardRedemption.occupies (r : RewardRedemption) (i : ItemId) : Prop :=
  r.rewardItemId = i ∧ r.status.occupying = true

def RewardRedemption.occupiesTerm (r : RewardRedemption) (u : UserId) (i : ItemId)
    (term : Text) : Prop :=
  r.userId = u ∧ r.rewardItemId = i ∧ r.termKey = term ∧ r.status.occupying = true

instance (r : RewardRedemption) (i : ItemId) : Decidable (r.occupies i) :=
  inferInstanceAs (Decidable (_ ∧ _))

instance (r : RewardRedemption) (u : UserId) (i : ItemId) (term : Text) :
    Decidable (r.occupiesTerm u i term) :=
  inferInstanceAs (Decidable (_ ∧ _))

def PointReservation.frozenFor (r : PointReservation) (u : UserId) : ℤ :=
  if r.userId = u ∧ r.status = .active then r.points else 0

namespace PointsDb

/-- Occupancy is counted, never stored: the item's redemptions that hold a unit. -/
def occupancy (db : PointsDb) (i : ItemId) : ℕ :=
  db.redemptions.count fun _ r => r.occupies i

def termUsage (db : PointsDb) (u : UserId) (i : ItemId) (term : Text) : ℕ :=
  db.redemptions.count fun _ r => r.occupiesTerm u i term

def frozen (db : PointsDb) (u : UserId) : ℤ :=
  db.reservations.total fun _ r => r.frozenFor u

def wallet (db : PointsDb) (u : UserId) : PointWallet :=
  (db.wallets.get u).getD .zero

def available (db : PointsDb) (u : UserId) : ℤ := (db.wallet u).availablePoints

def earned (db : PointsDb) (u : UserId) : ℤ := (db.wallet u).earnedPoints

def spendable (db : PointsDb) (u : UserId) : ℤ := db.available u - db.frozen u

end PointsDb

end CampusQuest.Points
