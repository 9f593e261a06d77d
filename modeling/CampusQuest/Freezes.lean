import CampusQuest.PointService

/-!
Frozen points and the redemptions that hold them. A redemption, its reservation and its
ledger entry move together: frozen while undecided, charged once when approved, released
without a charge when rejected. An accepted request leaves the user's available points at
or above what their ACTIVE reservations freeze.
-/

namespace CampusQuest.Points

open Tables Transactions Locking

/-- The triple of the entry that consumes a redemption's points. -/
def redemptionCharge (id : RedemptionId) : LedgerId := ⟨.rewardRedemption, id, .rewardRedemption⟩

def PointsLedger.charges (e : PointsLedger) (id : RedemptionId) : Prop :=
  e.sourceType = .rewardRedemption ∧ e.sourceId = id

instance (e : PointsLedger) (id : RedemptionId) : Decidable (e.charges id) :=
  inferInstanceAs (Decidable (_ ∧ _))

def PointsDb.chargeCount (db : PointsDb) (id : RedemptionId) : ℕ :=
  db.ledger.count fun _ e => e.charges id

def RedemptionStatus.charged (s : RedemptionStatus) : Prop := s = .approved ∨ s = .fulfilled

def RedemptionStatus.reservation : RedemptionStatus → ReservationStatus
  | .requested | .underReview => .active
  | .approved | .fulfilled => .consumed
  | .rejected => .released

structure Settled (db : PointsDb) (id : RedemptionId) (redemption : RewardRedemption) : Prop where
  reserved : ∃ reservation, db.reservations.get id = some reservation ∧
    reservation.status = redemption.status.reservation ∧
    reservation.points = redemption.points ∧ reservation.userId = redemption.userId
  charge : redemption.status.charged → ∃ e, db.ledger.get (redemptionCharge id) = some e ∧
    e.amount = -redemption.points ∧ e.userId = redemption.userId
  uncharged : ¬ redemption.status.charged → db.ledger.get (redemptionCharge id) = none

/-- Every redemption is settled, and every reservation and charge has its redemption. -/
structure Frozen (db : PointsDb) : Prop where
  keyed : Keyed db
  settled : ∀ id redemption, db.redemptions.get id = some redemption → Settled db id redemption
  requested : ∀ id, db.redemptions.get id = none →
    db.reservations.get id = none ∧ db.ledger.get (redemptionCharge id) = none
  only_charge : ∀ t e, db.ledger.get t = some e → e.sourceType = .rewardRedemption →
    e.ledgerType = .rewardRedemption

namespace Frozen

variable {db db' : PointsDb}

theorem initial (h : Initial db) : Frozen db := by
  have hkeyed := Keyed.initial h
  obtain ⟨_, hledger, hredemptions, hreservations⟩ := h
  refine ⟨hkeyed, fun id redemption hred => ?_, fun id _ => ?_, fun t e he => ?_⟩
  · rw [hredemptions, Table.get_empty] at hred
    cases hred
  · rw [hreservations, hledger, Table.get_empty, Table.get_empty]
    exact ⟨rfl, rfl⟩
  · rw [hledger, Table.get_empty] at he
    cases he

/-- Tables that agree on redemptions, reservations and ledger are frozen alike. -/
theorem congr (h : Frozen db) (hred : db'.redemptions = db.redemptions)
    (hres : db'.reservations = db.reservations) (hledger : db'.ledger = db.ledger) :
    Frozen db' := by
  obtain ⟨roles, wallets, ledger, items, redemptions, reservations, grants⟩ := db'
  obtain rfl : ledger = db.ledger := hledger
  obtain rfl : redemptions = db.redemptions := hred
  obtain rfl : reservations = db.reservations := hres
  refine ⟨h.keyed, fun id redemption hget => ?_, h.requested, h.only_charge⟩
  obtain ⟨hreserved, hcharge, huncharged⟩ := h.settled id redemption hget
  exact ⟨hreserved, hcharge, huncharged⟩

theorem openWallet (h : Frozen db) (u : UserId) : Frozen (db.openWallet u) :=
  h.congr (PointsDb.openWallet_redemptions db u) (PointsDb.openWallet_reservations db u)
    (PointsDb.openWallet_ledger db u)

/-- An entry of another source settles no redemption. -/
theorem post_other (h : Frozen db) {e : PointsLedger} (he : e.sourceType ≠ .rewardRedemption) :
    Frozen (db.post e) := by
  have hcharge : ∀ id, (db.post e).ledger.get (redemptionCharge id) =
      db.ledger.get (redemptionCharge id) := by
    intro id
    refine Table.get_put_of_ne _ _ fun heq => he ?_
    exact (congrArg SourceTriple.sourceType heq).symm
  refine ⟨h.keyed.post e, fun id redemption hget => ?_, fun id hnone => ?_, ?_⟩
  · have hsettled := h.settled id redemption hget
    refine ⟨hsettled.reserved, ?_, ?_⟩
    · rw [hcharge id]
      exact hsettled.charge
    · rw [hcharge id]
      exact hsettled.uncharged
  · rw [hcharge id]
    exact h.requested id hnone
  · intro t e' he' hsource
    rcases Table.get_put_eq_some he' with ⟨_, rfl⟩ | ⟨_, hold⟩
    · exact absurd hsource he
    · exact h.only_charge t e' hold hsource

/-- Settling one redemption, with its charge at most, leaves the others as they are. -/
theorem settle {db₁ : PointsDb} (h : Frozen db) {id : RedemptionId} {row : RewardRedemption}
    {reservation : PointReservation} (hred : db₁.redemptions = db.redemptions)
    (hres : db₁.reservations = db.reservations) (hkeyed : Keyed db₁)
    (honly : ∀ t e, db₁.ledger.get t = some e → e.sourceType = .rewardRedemption →
      e.ledgerType = .rewardRedemption)
    (hother : ∀ id', id' ≠ id → db₁.ledger.get (redemptionCharge id') =
      db.ledger.get (redemptionCharge id'))
    (hrow : Settled (db₁.settle id row reservation) id row) :
    Frozen (db₁.settle id row reservation) := by
  have hreservation : ∀ id', id' ≠ id →
      (db₁.settle id row reservation).reservations.get id' = db.reservations.get id' := by
    intro id' hne
    change (db₁.reservations.put id reservation).get id' = _
    rw [Table.get_put_of_ne _ _ hne, hres]
  have hcharge : ∀ id', id' ≠ id → (db₁.settle id row reservation).ledger.get
      (redemptionCharge id') = db.ledger.get (redemptionCharge id') := hother
  refine ⟨hkeyed, fun id' redemption hget => ?_, fun id' hnone => ?_, honly⟩
  · rcases Table.get_put_eq_some hget with ⟨rfl, rfl⟩ | ⟨hne, hget⟩
    · exact hrow
    · rw [hred] at hget
      have hsettled := h.settled id' redemption hget
      constructor
      · rw [hreservation id' hne]
        exact hsettled.reserved
      · rw [hcharge id' hne]
        exact hsettled.charge
      · rw [hcharge id' hne]
        exact hsettled.uncharged
  · have hne : id' ≠ id := by
      intro heq
      have hself : (db₁.settle id row reservation).redemptions.get id = some row :=
        Table.get_put_self _ _ _
      rw [heq, hself] at hnone
      cases hnone
    have hgone : db.redemptions.get id' = none := by
      change (db₁.redemptions.put id row).get id' = none at hnone
      rwa [Table.get_put_of_ne _ _ hne, hred] at hnone
    rw [hreservation id' hne, hcharge id' hne]
    exact h.requested id' hgone

theorem change (h : Frozen db) (hchange : Change db db') : Frozen db' := by
  cases hchange with
  | same => exact h
  | openWallet u => exact h.openWallet u
  | grant => exact h.post_other (by intro hsource; cases hsource)
  | reverse original id operator reason effectiveAt horiginal htype =>
    refine h.post_other fun hsource => ?_
    have hredemption := h.only_charge id original horiginal hsource
    rw [htype] at hredemption
    cases hredemption
  | adjust => exact h.post_other (by intro hsource; cases hsource)
  | request id user itemId item term _ _ _ _ hred hres =>
    have hnone := (h.requested id hred).2
    have hopen := h.openWallet user
    refine hopen.settle rfl rfl hopen.keyed hopen.only_charge (fun _ _ => rfl) ⟨?_, ?_, ?_⟩
    · exact ⟨_, Table.get_put_self _ _ _, rfl, rfl, rfl⟩
    · rintro (hstatus | hstatus) <;> cases hstatus
    · intro _
      change (db.openWallet user).ledger.get (redemptionCharge id) = none
      rw [PointsDb.openWallet_ledger]
      exact hnone
  | approve id redemption reservation now actor hred hreviewable hres hfree =>
    obtain ⟨reservation', hres', _, hpoints, huser⟩ := (h.settled id redemption hred).reserved
    rw [hres] at hres'
    cases hres'
    refine h.settle rfl rfl (h.keyed.post _) ?_ ?_ ⟨?_, ?_, ?_⟩
    · intro t e he hsource
      rcases Table.get_put_eq_some he with ⟨_, rfl⟩ | ⟨_, hold⟩
      · rfl
      · exact h.only_charge t e hold hsource
    · intro id' hne
      refine Table.get_put_of_ne _ _ fun heq => hne ?_
      exact congrArg SourceTriple.sourceId heq
    · exact ⟨_, Table.get_put_self _ _ _, rfl, hpoints, huser⟩
    · intro _
      exact ⟨_, Table.get_put_self _ _ _, rfl, rfl⟩
    · intro hnot
      exact absurd (Or.inl rfl) hnot
  | reject id redemption reservation now actor reason hred hreviewable hres =>
    have hsettled := h.settled id redemption hred
    obtain ⟨reservation', hres', _, hpoints, huser⟩ := hsettled.reserved
    rw [hres] at hres'
    cases hres'
    have hopen := h.openWallet redemption.userId
    refine hopen.settle rfl rfl hopen.keyed hopen.only_charge (fun _ _ => rfl) ⟨?_, ?_, ?_⟩
    · exact ⟨_, Table.get_put_self _ _ _, rfl, hpoints, huser⟩
    · rintro (hstatus | hstatus) <;> cases hstatus
    · intro _
      change (db.openWallet redemption.userId).ledger.get (redemptionCharge id) = none
      rw [PointsDb.openWallet_ledger]
      apply hsettled.uncharged
      rintro (hstatus | hstatus) <;> rcases hreviewable with hr | hr <;> rw [hr] at hstatus <;>
        cases hstatus
  | fulfill id redemption now note hred happroved =>
    have hsettled := h.settled id redemption hred
    obtain ⟨reservation, hres, hstatus, hpoints, huser⟩ := hsettled.reserved
    have hsame : ({ db with redemptions := db.redemptions.put id (redemption.fulfill now note) } :
        PointsDb) = db.settle id (redemption.fulfill now note) reservation := by
      unfold PointsDb.settle
      rw [Table.put_get hres]
    rw [hsame]
    refine h.settle rfl rfl h.keyed h.only_charge (fun _ _ => rfl) ⟨?_, ?_, ?_⟩
    · refine ⟨reservation, Table.get_put_self _ _ _, ?_, hpoints, huser⟩
      rw [hstatus, happroved]
      rfl
    · intro _
      exact hsettled.charge (Or.inl happroved)
    · intro hnot
      exact absurd (Or.inr rfl) hnot
  | item => exact h.congr rfl rfl rfl
  | accounts => exact h.congr rfl rfl rfl

end Frozen

theorem changes_frozen : changes.Inductive Frozen where
  init _ h := Frozen.initial h
  step _ _ _ h hstep := h.change hstep

structure Bijection (db : PointsDb) (id : RedemptionId) (redemption : RewardRedemption)
    (reservation : PointReservation) : Prop where
  undecided : redemption.status.reviewable ↔ reservation.status = .active
  charged : redemption.status.charged ↔ reservation.status = .consumed ∧
    db.chargeCount id = 1 ∧ ∃ t e, db.ledger.get t = some e ∧ e.charges id ∧
      e.amount = -redemption.points ∧ e.userId = redemption.userId
  rejected : redemption.status = .rejected ↔
    reservation.status = .released ∧ db.chargeCount id = 0
  same_points : reservation.points = redemption.points
  same_user : reservation.userId = redemption.userId

theorem Frozen.chargeCount {db : PointsDb} (h : Frozen db) (id : RedemptionId) :
    db.chargeCount id = (db.ledger.get (redemptionCharge id)).elim 0 fun _ => 1 := by
  unfold PointsDb.chargeCount
  have hunique : ∀ t e, db.ledger.get t = some e → e.charges id → t = redemptionCharge id := by
    rintro t e he ⟨hsource, hid⟩
    rw [← h.keyed t e he, PointsLedger.triple, h.only_charge t e he hsource, hsource, hid]
    rfl
  rw [Table.count_of_unique (fun _ (e : PointsLedger) => e.charges id) hunique]
  cases he : db.ledger.get (redemptionCharge id) with
  | none => rfl
  | some e =>
    have hkey := h.keyed _ _ he
    have hcharges : e.charges id :=
      ⟨congrArg SourceTriple.sourceType hkey, congrArg SourceTriple.sourceId hkey⟩
    simp [hcharges]

theorem Frozen.bijection {db : PointsDb} (h : Frozen db) {id : RedemptionId}
    {redemption : RewardRedemption} (hred : db.redemptions.get id = some redemption) :
    ∃ reservation, db.reservations.get id = some reservation ∧
      Bijection db id redemption reservation := by
  obtain ⟨⟨reservation, hres, hstatus, hpoints, huser⟩, hcharge, huncharged⟩ :=
    h.settled id redemption hred
  refine ⟨reservation, hres, ?_⟩
  have hcount := h.chargeCount id
  by_cases hcharged : redemption.status.charged
  · obtain ⟨e, he, hamount, howner⟩ := hcharge hcharged
    rw [he] at hcount
    have hkey := h.keyed _ _ he
    have hcharges : e.charges id :=
      ⟨congrArg SourceTriple.sourceType hkey, congrArg SourceTriple.sourceId hkey⟩
    have hconsumed : reservation.status = .consumed := by
      rcases hcharged with hs | hs <;> rw [hstatus, hs] <;> rfl
    refine ⟨?_, ?_, ?_, hpoints, huser⟩
    · rw [hconsumed]
      constructor
      · rintro (hs | hs) <;> rcases hcharged with hs' | hs' <;> rw [hs] at hs' <;> cases hs'
      · intro hactive
        cases hactive
    · exact ⟨fun _ => ⟨hconsumed, hcount, _, e, he, hcharges, hamount, howner⟩,
        fun _ => hcharged⟩
    · rw [hconsumed]
      constructor
      · intro hs
        rcases hcharged with hs' | hs' <;> rw [hs] at hs' <;> cases hs'
      · rintro ⟨hreleased, _⟩
        cases hreleased
  · rw [huncharged hcharged] at hcount
    have hcount : db.chargeCount id = 0 := hcount
    rw [RedemptionStatus.charged] at hcharged
    refine ⟨?_, ?_, ?_, hpoints, huser⟩
    · rw [hstatus]
      cases hs : redemption.status <;>
        simp_all [RedemptionStatus.reviewable, RedemptionStatus.reservation]
    · constructor
      · intro hs
        exact absurd hs hcharged
      · rintro ⟨_, hone, _⟩
        omega
    · rw [hstatus, hcount]
      cases hs : redemption.status <;> simp_all [RedemptionStatus.reservation]

section Requests

variable {db : PointsDb} {id : RedemptionId} {user : UserId} {item : RewardItem}
  {row : RewardRedemption}

theorem settle_request_frozen (hfree : db.reservations.get id = none) :
    (db.settle id row (newReservation user id item)).frozen user =
      item.pointCost + db.frozen user := by
  unfold PointsDb.frozen
  have hput := Table.total_put_fresh (newReservation user id item)
    (fun _ r => r.frozenFor user) hfree
  have hown : (newReservation user id item).frozenFor user = item.pointCost := by
    unfold PointReservation.frozenFor
    exact if_pos ⟨rfl, rfl⟩
  rw [← hown]
  exact hput

theorem settle_available (reservation : PointReservation) (u : UserId) :
    (db.settle id row reservation).available u = db.available u := rfl

theorem openWallet_available (u v : UserId) : (db.openWallet u).available v = db.available v := by
  unfold PointsDb.available
  rw [PointsDb.openWallet_wallet]

end Requests

/-- No overspend in any interleaving: redemption, reservation and ledger entry stay one fact,
and an accepted request commits with its user's spendable points not negative. -/
theorem no_overspend {ι : Type} [DecidableEq ι]
    {c : Config ι PointsDb (Session statements Call PointsError Receipt)}
    (hc : (system ι).Reach c) :
    (∀ id redemption, c.store.redemptions.get id = some redemption →
      ∃ reservation, c.store.reservations.get id = some reservation ∧
        Bijection c.store id redemption reservation) ∧
      ∀ i l c', (system ι).step c (i, l) c' → ∀ now term id user item row,
        c'.proc i = .ended (.request now term id user item) (.ok row) →
          0 ≤ c'.store.available user - c'.store.frozen user := by
  have hfrozen := changes_frozen.reach (store_changes hc)
  refine ⟨fun id redemption hred => hfrozen.bijection hred, ?_⟩
  intro i l c' hstep now term id user item row hended
  obtain ⟨p, hends, hstore⟩ := service_sound.ends (fun _ => paired_initial) hc hstep hended
  rcases hstore with ⟨_, _, hview⟩ | ⟨_, hr, _⟩
  · obtain ⟨redemption, hends, _⟩ := ends_receipt hends
    obtain ⟨it, _, _, _, _, hspend, _, hres, hcommit, _⟩ := requestRedemption_ends hends
    rw [hview, hcommit, settle_available, openWallet_available, settle_request_frozen]
    · rw [PointsDb.openWallet_frozen]
      unfold PointsDb.spendable at hspend
      omega
    · rw [PointsDb.openWallet_reservations]
      exact hres
  · cases hr

/-- User 7 earns 50 points and redeems the poster; administrator 9 approves. -/
def posterRedeemed : List Call :=
  [.grant 1 7 50 (some 0), .request 1 ['T'] 1 7 5, .approve 2 ⟨9, .admin⟩ 1]

theorem no_overspend_poster :
    let db := (service.serially (opening (Table.empty.put 5 poster)) posterRedeemed).store
    (db.available 7 = 20 ∧ db.chargeCount 1 = 1 ∧ (db.redemptions.get 1).isSome = true) ∧
      ∀ id redemption, db.redemptions.get id = some redemption →
        ∃ reservation, db.reservations.get id = some reservation ∧
          Bijection db id redemption reservation :=
  ⟨by decide +kernel, (no_overspend (reach_serial_calls _ posterRedeemed)).1⟩

end CampusQuest.Points
