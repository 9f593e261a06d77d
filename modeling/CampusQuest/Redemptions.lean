import CampusQuest.Ledger

/-!
The redemption service: a request freezes points and occupies a stock unit, a decision
turns the freeze into one negative ledger entry or releases it, and fulfilment records the
delivery. Each function is followed by what it comes to when it commits.
-/

namespace CampusQuest.Points

open Tables Transactions

/-- The half-open window `available_from <= now < available_until`. -/
def windowOpen (item : RewardItem) (now : Instant) : Bool :=
  let afterStart := match item.availableFrom with
    | none => true
    | some start => decide (start ≤ now)
  let beforeEnd := match item.availableUntil with
    | none => true
    | some stop => decide (now < stop)
  afterStart && beforeEnd

def termKeyMaxLength : ℕ := 64

/-- Stock is refused under the item lock when the occupancy already equals it. -/
def stockGate (itemId : ItemId) (item : RewardItem) : PointsTxn Unit :=
  match item.stock with
  | none => return ()
  | some stock => do
    let occupancy ← ask (.occupancy itemId)
    if stock ≤ (occupancy : ℤ) then refuse (.rewardOutOfStock itemId stock) else return ()

def termGate (user : UserId) (itemId : ItemId) (item : RewardItem) (termKey : Text) :
    PointsTxn Unit :=
  match item.perUserTermLimit with
  | none => return ()
  | some limit => do
    let used ← ask (.termUsage user itemId termKey)
    if limit ≤ (used : ℤ) then refuse (.redemptionLimitReached itemId limit termKey)
    else return ()

/-- Spendability is recomputed under the wallet lock; the public detail never shows a
negative figure. -/
def spendableGate (user : UserId) (wallet : PointWallet) (item : RewardItem) : PointsTxn Unit := do
  let frozen ← ask (.frozen user)
  if wallet.availablePoints - frozen < item.pointCost then
    refuse (.insufficientPoints item.pointCost (max (wallet.availablePoints - frozen) 0))
  else return ()

def newRedemption (user : UserId) (itemId : ItemId) (item : RewardItem) (termKey : Text) :
    RewardRedemption where
  userId := user
  rewardItemId := itemId
  status := .requested
  termKey := termKey
  points := item.pointCost
  decidedAt := none
  decidedBy := none
  rejectionReason := none
  fulfilledAt := none
  fulfillmentNote := none
  points_pos := item.point_cost

def newReservation (user : UserId) (id : RedemptionId) (item : RewardItem) : PointReservation where
  userId := user
  redemptionId := id
  points := item.pointCost
  status := .active
  releasedAt := none
  points_pos := item.point_cost
  release_coherence := by simp

/-- `id` is the id the server generates for the new redemption, `now` the instant the clock
gives after the locks are taken. -/
def requestRedemption (now : Instant) (currentTermKey : Text) (id : RedemptionId)
    (user : UserId) (itemId : ItemId) : PointsTxn RewardRedemption :=
  let termKey := strip currentTermKey
  if termKey = [] ∨ termKeyMaxLength < termKey.length then
    refuse (.academicTermConfiguration currentTermKey)
  else do
    -- Wallet first, item second: every request takes the two locks in this order.
    let wallet ← lockedOrCreatedWallet user
    lock (.item itemId)
    match ← ask (.item itemId) with
    | none => refuse (.rewardItemNotFound itemId)
    | some item =>
      if item.enabled = false then refuse (.rewardItemDisabled itemId)
      else if windowOpen item now = false then
        refuse (.redemptionWindowClosed itemId item.availableFrom item.availableUntil)
      else do
        stockGate itemId item
        termGate user itemId item termKey
        spendableGate user wallet item
        insert (.redemption id (newRedemption user itemId item termKey))
        insert (.reservation id (newReservation user id item))
        return newRedemption user itemId item termKey

/-- ADMIN passes; a TEACHER passes with a live REWARD_REVIEW grant. -/
def requireReviewer (actor : Actor) : PointsTxn Unit :=
  if isAdmin actor.role = true then return ()
  else if actor.role = .teacher then do
    match ← ask (.reviewGrant actor.userId) with
    | some _ => return ()
    | none => refuse (.redemptionPermissionDenied actor.userId actor.role)
  else refuse (.redemptionPermissionDenied actor.userId actor.role)

def lockedRedemption (id : RedemptionId) : PointsTxn RewardRedemption := do
  lock (.redemption id)
  match ← ask (.redemption id) with
  | some redemption => return redemption
  | none => refuse (.redemptionNotFound id)

def lockedReservation (id : RedemptionId) : PointsTxn PointReservation := do
  lock (.reservation id)
  match ← ask (.reservation id) with
  | some reservation => return reservation
  | none => refuse (.reservationMissing id)

def redemptionCommand (id : RedemptionId) (redemption : RewardRedemption) (operator : UserId) :
    PostLedgerEntry where
  userId := redemption.userId
  ledgerType := .rewardRedemption
  amount := -redemption.points
  sourceType := .rewardRedemption
  sourceId := some id
  affectsBalance := true
  affectsRanking := false
  operatorId := some operator

def PointReservation.consume (r : PointReservation) (now : Instant) : PointReservation :=
  { r with status := .consumed, releasedAt := some now, release_coherence := by simp }

def PointReservation.release (r : PointReservation) (now : Instant) : PointReservation :=
  { r with status := .released, releasedAt := some now, release_coherence := by simp }

def RewardRedemption.decide (r : RewardRedemption) (status : RedemptionStatus) (now : Instant)
    (actor : UserId) (rejectionReason : Option Text) : RewardRedemption :=
  { r with status := status, decidedAt := some now, decidedBy := some actor, rejectionReason }

def RewardRedemption.fulfill (r : RewardRedemption) (now : Instant) (note : Option Text) :
    RewardRedemption :=
  { r with status := .fulfilled, fulfilledAt := some now, fulfillmentNote := note }

def RedemptionStatus.reviewable (s : RedemptionStatus) : Prop := s = .requested ∨ s = .underReview

instance (s : RedemptionStatus) : Decidable s.reviewable := inferInstanceAs (Decidable (_ ∨ _))

def approveRedemption (now : Instant) (actor : Actor) (id : RedemptionId) :
    PointsTxn RewardRedemption := do
  requireReviewer actor
  let redemption ← lockedRedemption id
  if redemption.status = .approved then return redemption
  else if ¬ redemption.status.reviewable then
    refuse (.redemptionNotReviewable id redemption.status)
  else do
    let _ ← lockedOrCreatedWallet redemption.userId
    let reservation ← lockedReservation id
    let _ ← postEntry (redemptionCommand id redemption actor.userId)
    write (.reservation id (reservation.consume now))
    let approved := redemption.decide .approved now actor.userId redemption.rejectionReason
    write (.redemption id approved)
    return approved

def rejectRedemption (now : Instant) (actor : Actor) (id : RedemptionId) (reason : Option Text) :
    PointsTxn RewardRedemption :=
  if strippedReason reason = [] then refuse (.rejectReasonRequired id)
  else do
    requireReviewer actor
    let redemption ← lockedRedemption id
    if redemption.status = .rejected then return redemption
    else if ¬ redemption.status.reviewable then
      refuse (.redemptionNotReviewable id redemption.status)
    else do
      let _ ← lockedOrCreatedWallet redemption.userId
      let reservation ← lockedReservation id
      write (.reservation id (reservation.release now))
      let rejected := redemption.decide .rejected now actor.userId (some (strippedReason reason))
      write (.redemption id rejected)
      return rejected

def fulfillRedemption (now : Instant) (actor : Actor) (id : RedemptionId) (note : Option Text) :
    PointsTxn RewardRedemption := do
  requireReviewer actor
  let redemption ← lockedRedemption id
  if redemption.status = .fulfilled then return redemption
  else if redemption.status ≠ .approved then
    refuse (.redemptionNotFulfillable id redemption.status)
  else do
    write (.redemption id (redemption.fulfill now (reasonText note)))
    return redemption.fulfill now (reasonText note)

namespace PointsDb

/-- The tables after a redemption and its reservation are written together. -/
def settle (db : PointsDb) (id : RedemptionId) (row : RewardRedemption)
    (reservation : PointReservation) : PointsDb :=
  { db with
    redemptions := db.redemptions.put id row
    reservations := db.reservations.put id reservation }

@[simp] theorem openWallet_occupancy (db : PointsDb) (u : UserId) (i : ItemId) :
    (db.openWallet u).occupancy i = db.occupancy i := by
  unfold occupancy
  rw [openWallet_redemptions]

@[simp] theorem openWallet_termUsage (db : PointsDb) (u v : UserId) (i : ItemId) (term : Text) :
    (db.openWallet u).termUsage v i term = db.termUsage v i term := by
  unfold termUsage
  rw [openWallet_redemptions]

@[simp] theorem openWallet_frozen (db : PointsDb) (u v : UserId) :
    (db.openWallet u).frozen v = db.frozen v := by
  unfold frozen
  rw [openWallet_reservations]

end PointsDb

section Outcomes

variable {db : PointsDb} {p p' : Pending statements}

theorem stockGate_ends {itemId : ItemId} {item : RewardItem} {u : Unit}
    (hlock : .item itemId ∈ p.locks)
    (h : (stockGate itemId item).Ends locking db p (.ok u) p') :
    p' = p ∧ ∀ n, item.stock = some n → ((p.view db).occupancy itemId : ℤ) < n := by
  unfold stockGate at h
  split at h
  next hstock =>
    refine ⟨(ends_pure.mp h).2, fun n hn => ?_⟩
    rw [hstock] at hn
    cases hn
  next stock hstock =>
    rw [ends_ask] at h
    obtain ⟨occupancy, hret, h⟩ := h
    have hle : (p.view db).occupancy itemId ≤ occupancy := hret hlock
    split at h
    next => exact absurd h refuse_ends_ok
    next hless =>
      refine ⟨(ends_pure.mp h).2, fun n hn => ?_⟩
      rw [hstock] at hn
      cases hn
      omega

theorem termGate_ends {user : UserId} {itemId : ItemId} {item : RewardItem} {termKey : Text}
    {u : Unit} (hlock : .wallet user ∈ p.locks)
    (h : (termGate user itemId item termKey).Ends locking db p (.ok u) p') :
    p' = p ∧ ∀ n, item.perUserTermLimit = some n →
      ((p.view db).termUsage user itemId termKey : ℤ) < n := by
  unfold termGate at h
  split at h
  next hlimit =>
    refine ⟨(ends_pure.mp h).2, fun n hn => ?_⟩
    rw [hlimit] at hn
    cases hn
  next limit hlimit =>
    rw [ends_ask] at h
    obtain ⟨used, hret, h⟩ := h
    have hle : (p.view db).termUsage user itemId termKey ≤ used := hret hlock
    split at h
    next => exact absurd h refuse_ends_ok
    next hless =>
      refine ⟨(ends_pure.mp h).2, fun n hn => ?_⟩
      rw [hlimit] at hn
      cases hn
      omega

theorem spendableGate_ends {user : UserId} {wallet : PointWallet} {item : RewardItem} {u : Unit}
    (hlock : .wallet user ∈ p.locks)
    (h : (spendableGate user wallet item).Ends locking db p (.ok u) p') :
    p' = p ∧ item.pointCost ≤ wallet.availablePoints - (p.view db).frozen user := by
  unfold spendableGate at h
  rw [ends_ask] at h
  obtain ⟨frozen, hret, h⟩ := h
  have hfrozen : (p.view db).frozen user = frozen := hret hlock
  split at h
  next => exact absurd h refuse_ends_ok
  next hless =>
    refine ⟨(ends_pure.mp h).2, ?_⟩
    rw [hfrozen]
    omega

/-- An accepted request: under the wallet and item locks stock, term slot and spendable
points suffice, and the redemption with its reservation is new. -/
theorem requestRedemption_ends {now : Instant} {term : Text} {id : RedemptionId} {user : UserId}
    {itemId : ItemId} {row : RewardRedemption}
    (h : (requestRedemption now term id user itemId).Ends locking db .start (.ok row) p') :
    ∃ item, db.items.get itemId = some item ∧
      row = newRedemption user itemId item (strip term) ∧
      (∀ n, item.stock = some n → (db.occupancy itemId : ℤ) < n) ∧
      (∀ n, item.perUserTermLimit = some n →
        (db.termUsage user itemId (strip term) : ℤ) < n) ∧
      item.pointCost ≤ db.spendable user ∧
      db.redemptions.get id = none ∧ db.reservations.get id = none ∧
      p'.view db = (db.openWallet user).settle id row (newReservation user id item) ∧
      .item itemId ∈ p'.locks ∧ .wallet user ∈ p'.locks ∧
      Extends (fun w => (∃ x, w = .wallet user x) ∨ w = .redemption id row ∨
        w = .reservation id (newReservation user id item)) .start p' := by
  unfold requestRedemption at h
  dsimp only at h
  split at h
  next => exact absurd h refuse_ends_ok
  next =>
  obtain ⟨wallet, p₁, hwallet, h⟩ := ends_seq_ok h
  obtain ⟨hw, hview, hheld, _, hext⟩ := lockedOrCreatedWallet_ends hwallet
  rw [Pending.view_start] at hw hview
  have hw : wallet = db.wallet user := Except.ok.inj hw
  subst hw
  rw [ends_lock, ends_ask] at h
  obtain ⟨a, hret, h⟩ := h
  have hitem : db.items.get itemId = a := by
    have hget := hret List.mem_cons_self
    rw [Pending.view_hold, hview, PointsDb.openWallet_items] at hget
    exact hget
  cases a with
  | none => exact absurd h refuse_ends_ok
  | some item =>
    dsimp only at h
    split at h
    next => exact absurd h refuse_ends_ok
    next =>
    split at h
    next => exact absurd h refuse_ends_ok
    next =>
    obtain ⟨_, p₂, hgate, h⟩ := ends_seq_ok h
    obtain ⟨rfl, hstock⟩ := stockGate_ends List.mem_cons_self hgate
    obtain ⟨_, p₃, hgate, h⟩ := ends_seq_ok h
    obtain ⟨rfl, hterm⟩ := termGate_ends (List.mem_cons_of_mem _ hheld) hgate
    obtain ⟨_, p₄, hgate, h⟩ := ends_seq_ok h
    obtain ⟨rfl, hspend⟩ := spendableGate_ends (List.mem_cons_of_mem _ hheld) hgate
    obtain ⟨hfree, h⟩ := ends_insert_ok h
    obtain ⟨hfree', h⟩ := ends_insert_ok h
    obtain ⟨hrow, rfl⟩ := ends_pure.mp h
    have hrow : row = newRedemption user itemId item (strip term) := Except.ok.inj hrow
    subst hrow
    rw [Pending.view_hold, hview, PointsDb.openWallet_occupancy] at hstock
    rw [Pending.view_hold, hview, PointsDb.openWallet_termUsage] at hterm
    rw [Pending.view_hold, hview, PointsDb.openWallet_frozen] at hspend
    rw [Pending.view_hold, hview] at hfree
    rw [Pending.view_add, Pending.view_hold, hview] at hfree'
    have hredemption : db.redemptions.get id = none := by
      rw [Bool.not_eq_true] at hfree
      have hnone := Option.isSome_eq_false_iff.mp hfree
      simpa using hnone
    have hreservation : db.reservations.get id = none := by
      rw [Bool.not_eq_true] at hfree'
      have hnone := Option.isSome_eq_false_iff.mp hfree'
      have hnone' : ((db.openWallet user).reservations.get id).isNone := hnone
      simpa using hnone'
    refine ⟨item, hitem, rfl, hstock, hterm, hspend, hredemption, hreservation, ?_, ?_, ?_, ?_⟩
    · rw [Pending.view_add, Pending.view_add, Pending.view_hold, hview]
      rfl
    · exact List.mem_cons_of_mem _ (List.mem_cons_of_mem _ List.mem_cons_self)
    · exact List.mem_cons_of_mem _ (List.mem_cons_of_mem _ (List.mem_cons_of_mem _ hheld))
    · refine (hext.mono fun w hw => Or.inl hw).trans ((Extends.hold (.item itemId)).trans ?_)
      exact (Extends.add (Or.inr (Or.inl rfl))).trans (Extends.add (Or.inr (Or.inr rfl)))

theorem requireReviewer_ends {actor : Actor} {u : Unit}
    (h : (requireReviewer actor).Ends locking db p (.ok u) p') : p' = p := by
  unfold requireReviewer at h
  split at h
  next => exact (ends_pure.mp h).2
  next =>
  split at h
  next =>
    rw [ends_ask] at h
    obtain ⟨a, _, h⟩ := h
    cases a with
    | some _ => exact (ends_pure.mp h).2
    | none => exact absurd h refuse_ends_ok
  next => exact absurd h refuse_ends_ok

theorem lockedRedemption_ends {id : RedemptionId} {row : RewardRedemption}
    (h : (lockedRedemption id).Ends locking db p (.ok row) p') :
    p' = p.hold (.redemption id) ∧ (p.view db).redemptions.get id = some row := by
  unfold lockedRedemption at h
  rw [ends_lock, ends_ask] at h
  obtain ⟨a, hret, h⟩ := h
  have hget : (p.view db).redemptions.get id = a := hret List.mem_cons_self
  cases a with
  | none => exact absurd h refuse_ends_ok
  | some redemption =>
    obtain ⟨hrow, rfl⟩ := ends_pure.mp h
    cases hrow
    exact ⟨rfl, hget⟩

theorem lockedReservation_ends {id : RedemptionId} {row : PointReservation}
    (h : (lockedReservation id).Ends locking db p (.ok row) p') :
    p' = p.hold (.reservation id) ∧ (p.view db).reservations.get id = some row := by
  unfold lockedReservation at h
  rw [ends_lock, ends_ask] at h
  obtain ⟨a, hret, h⟩ := h
  have hget : (p.view db).reservations.get id = a := hret List.mem_cons_self
  cases a with
  | none => exact absurd h refuse_ends_ok
  | some reservation =>
    obtain ⟨hrow, rfl⟩ := ends_pure.mp h
    cases hrow
    exact ⟨rfl, hget⟩

theorem validate_redemptionCommand (id : RedemptionId) (redemption : RewardRedemption)
    (operator : UserId) : validate (redemptionCommand id redemption operator) = none := by
  have hpos := redemption.points_pos
  have hne : redemption.points ≠ 0 := by omega
  simp [validate, redemptionCommand, hne]

def redemptionRow (id : RedemptionId) (redemption : RewardRedemption) (operator : UserId) :
    PointsLedger :=
  (redemptionCommand id redemption operator).toRow 0
    (validate_redemptionCommand id redemption operator)

theorem redemptionRow_touches (id : RedemptionId) (redemption : RewardRedemption)
    (operator : UserId) : (redemptionRow id redemption operator).touchesWallet := Or.inl rfl

/-- An approval is a replay of an APPROVED redemption, or it consumes the reservation of an
undecided one and posts its points as one negative entry. -/
theorem approveRedemption_ends {now : Instant} {actor : Actor} {id : RedemptionId}
    {row : RewardRedemption}
    (h : (approveRedemption now actor id).Ends locking db .start (.ok row) p') :
    (db.redemptions.get id = some row ∧ row.status = .approved ∧ p'.writes = []) ∨
    ∃ redemption reservation, db.redemptions.get id = some redemption ∧
      redemption.status.reviewable ∧ db.reservations.get id = some reservation ∧
      db.ledger.get (redemptionRow id redemption actor.userId).triple = none ∧
      row = redemption.decide .approved now actor.userId redemption.rejectionReason ∧
      p'.view db = (db.post (redemptionRow id redemption actor.userId)).settle id row
        (reservation.consume now) ∧
      .wallet redemption.userId ∈ p'.locks ∧
      Extends (fun w => Posting (redemptionRow id redemption actor.userId) w ∨
        w = .redemption id row ∨ w = .reservation id (reservation.consume now)) .start p' := by
  unfold approveRedemption at h
  obtain ⟨_, p₁, hreviewer, h⟩ := ends_seq_ok h
  have hp₁ := requireReviewer_ends hreviewer
  subst hp₁
  obtain ⟨redemption, p₂, hlocked, h⟩ := ends_seq_ok h
  obtain ⟨rfl, hredemption⟩ := lockedRedemption_ends hlocked
  rw [Pending.view_start] at hredemption
  split at h
  next happroved =>
    obtain ⟨hrow, rfl⟩ := ends_pure.mp h
    cases hrow
    exact Or.inl ⟨hredemption, happroved, rfl⟩
  next =>
  split at h
  next => exact absurd h refuse_ends_ok
  next hreviewable =>
  rw [not_not] at hreviewable
  obtain ⟨_, p₃, hwallet, h⟩ := ends_seq_ok h
  obtain ⟨_, hview, hheld, _, hext⟩ := lockedOrCreatedWallet_ends hwallet
  rw [Pending.view_hold, Pending.view_start] at hview
  obtain ⟨reservation, p₄, hlocked', h⟩ := ends_seq_ok h
  obtain ⟨rfl, hreservation⟩ := lockedReservation_ends hlocked'
  rw [hview, PointsDb.openWallet_reservations] at hreservation
  obtain ⟨e, p₅, hpost, h⟩ := ends_seq_ok h
  obtain ⟨_, he, hfree, hposted, hext'⟩ := postEntry_ends_ok hpost
  have he : e = redemptionRow id redemption actor.userId := he
  subst he
  rw [Pending.view_hold, hview, PointsDb.openWallet_ledger] at hfree
  rw [Pending.view_hold, hview] at hposted
  dsimp only at h
  rw [ends_write, ends_write] at h
  obtain ⟨hrow, rfl⟩ := ends_pure.mp h
  cases hrow
  refine Or.inr ⟨redemption, reservation, hredemption, hreviewable, hreservation, hfree, rfl,
    ?_, ?_, ?_⟩
  · rw [Pending.view_add, Pending.view_add, hposted]
    have hopen : (db.openWallet redemption.userId).post (redemptionRow id redemption actor.userId) =
        db.post (redemptionRow id redemption actor.userId) :=
      PointsDb.openWallet_post db (redemptionRow_touches id redemption actor.userId)
    rw [hopen]
    rfl
  · exact List.mem_cons_of_mem _ (List.mem_cons_of_mem _
      (hext'.locks _ (List.mem_cons_of_mem _ hheld)))
  · refine (Extends.hold (.redemption id)).trans ((hext.mono fun w hw => ?_).trans
      ((Extends.hold (.reservation id)).trans ((hext'.mono fun w hw => Or.inl hw).trans
        ((Extends.add (Or.inr (Or.inr rfl))).trans (Extends.add (Or.inr (Or.inl rfl)))))))
    exact Or.inl (Or.inr hw)

/-- A rejection is a replay of a REJECTED redemption, or it releases the reservation of an
undecided one and posts nothing. -/
theorem rejectRedemption_ends {now : Instant} {actor : Actor} {id : RedemptionId}
    {reason : Option Text} {row : RewardRedemption}
    (h : (rejectRedemption now actor id reason).Ends locking db .start (.ok row) p') :
    (db.redemptions.get id = some row ∧ row.status = .rejected ∧ p'.writes = []) ∨
    ∃ redemption reservation, db.redemptions.get id = some redemption ∧
      redemption.status.reviewable ∧ db.reservations.get id = some reservation ∧
      row = redemption.decide .rejected now actor.userId (some (strippedReason reason)) ∧
      p'.view db = (db.openWallet redemption.userId).settle id row (reservation.release now) ∧
      .wallet redemption.userId ∈ p'.locks ∧
      Extends (fun w => (∃ x, w = .wallet redemption.userId x) ∨ w = .redemption id row ∨
        w = .reservation id (reservation.release now)) .start p' := by
  unfold rejectRedemption at h
  split at h
  next => exact absurd h refuse_ends_ok
  next =>
  obtain ⟨_, p₁, hreviewer, h⟩ := ends_seq_ok h
  have hp₁ := requireReviewer_ends hreviewer
  subst hp₁
  obtain ⟨redemption, p₂, hlocked, h⟩ := ends_seq_ok h
  obtain ⟨rfl, hredemption⟩ := lockedRedemption_ends hlocked
  rw [Pending.view_start] at hredemption
  split at h
  next hrejected =>
    obtain ⟨hrow, rfl⟩ := ends_pure.mp h
    cases hrow
    exact Or.inl ⟨hredemption, hrejected, rfl⟩
  next =>
  split at h
  next => exact absurd h refuse_ends_ok
  next hreviewable =>
  rw [not_not] at hreviewable
  obtain ⟨_, p₃, hwallet, h⟩ := ends_seq_ok h
  obtain ⟨_, hview, hheld, _, hext⟩ := lockedOrCreatedWallet_ends hwallet
  rw [Pending.view_hold, Pending.view_start] at hview
  obtain ⟨reservation, p₄, hlocked', h⟩ := ends_seq_ok h
  obtain ⟨rfl, hreservation⟩ := lockedReservation_ends hlocked'
  rw [hview, PointsDb.openWallet_reservations] at hreservation
  dsimp only at h
  rw [ends_write, ends_write] at h
  obtain ⟨hrow, rfl⟩ := ends_pure.mp h
  cases hrow
  refine Or.inr ⟨redemption, reservation, hredemption, hreviewable, hreservation, rfl,
    ?_, ?_, ?_⟩
  · rw [Pending.view_add, Pending.view_add, Pending.view_hold, hview]
    rfl
  · exact List.mem_cons_of_mem _ (List.mem_cons_of_mem _ (List.mem_cons_of_mem _ hheld))
  · exact (Extends.hold (.redemption id)).trans ((hext.mono fun w hw => Or.inl hw).trans
      ((Extends.hold (.reservation id)).trans
        ((Extends.add (Or.inr (Or.inr rfl))).trans (Extends.add (Or.inr (Or.inl rfl))))))

/-- A fulfilment is a replay of a FULFILLED redemption, or it marks an APPROVED one. -/
theorem fulfillRedemption_ends {now : Instant} {actor : Actor} {id : RedemptionId}
    {note : Option Text} {row : RewardRedemption}
    (h : (fulfillRedemption now actor id note).Ends locking db .start (.ok row) p') :
    (db.redemptions.get id = some row ∧ row.status = .fulfilled ∧ p'.writes = []) ∨
    ∃ redemption, db.redemptions.get id = some redemption ∧ redemption.status = .approved ∧
      row = redemption.fulfill now (reasonText note) ∧
      p'.view db = { db with redemptions := db.redemptions.put id row } ∧
      Extends (fun w => w = .redemption id row) .start p' := by
  unfold fulfillRedemption at h
  obtain ⟨_, p₁, hreviewer, h⟩ := ends_seq_ok h
  have hp₁ := requireReviewer_ends hreviewer
  subst hp₁
  obtain ⟨redemption, p₂, hlocked, h⟩ := ends_seq_ok h
  obtain ⟨rfl, hredemption⟩ := lockedRedemption_ends hlocked
  rw [Pending.view_start] at hredemption
  split at h
  next hfulfilled =>
    obtain ⟨hrow, rfl⟩ := ends_pure.mp h
    cases hrow
    exact Or.inl ⟨hredemption, hfulfilled, rfl⟩
  next =>
  split at h
  next => exact absurd h refuse_ends_ok
  next happroved =>
  rw [ne_eq, not_not] at happroved
  rw [ends_write] at h
  obtain ⟨hrow, rfl⟩ := ends_pure.mp h
  cases hrow
  refine Or.inr ⟨redemption, hredemption, happroved, rfl, ?_, ?_⟩
  · rw [Pending.view_add, Pending.view_hold]
    rfl
  · exact (Extends.hold (.redemption id)).trans (Extends.add rfl)

end Outcomes

end CampusQuest.Points
