import CampusQuest.PointService

/-!
The wallet as the projection of the ledger: available points sum the balance-affecting
entries, earned points sum the positive ranking-affecting ones. Every writer changes the
wallet only together with the entry that explains it, so the projection is an invariant.
-/

namespace CampusQuest.Points

open Tables Transactions Locking

/-- An entry's share of a user's available points. -/
def PointsLedger.balanceFor (e : PointsLedger) (u : UserId) : ℤ :=
  if e.userId = u ∧ e.affectsBalance = true then e.amount else 0

/-- An entry's share of a user's earned points. -/
def PointsLedger.earningFor (e : PointsLedger) (u : UserId) : ℤ :=
  if e.userId = u ∧ e.affectsRanking = true ∧ 0 < e.amount then e.amount else 0

namespace PointsDb

def ledgerBalance (db : PointsDb) (u : UserId) : ℤ :=
  db.ledger.total fun _ e => e.balanceFor u

/-- The sum of a user's positive ranking-affecting amounts. -/
def ledgerEarnings (db : PointsDb) (u : UserId) : ℤ :=
  db.ledger.total fun _ e => e.earningFor u

end PointsDb

structure Projected (db : PointsDb) : Prop where
  available : ∀ u, db.available u = db.ledgerBalance u
  earned : ∀ u, db.earned u = db.ledgerEarnings u

theorem post_available (db : PointsDb) (e : PointsLedger) (u : UserId) :
    (db.post e).available u = db.available u + e.balanceFor u := by
  unfold PointsDb.available PointsLedger.balanceFor
  rw [PointsDb.post_wallet]
  by_cases hu : e.userId = u
  · rw [if_pos hu]
    simp only [PointWallet.credit, hu, true_and]
  · simp [hu]

theorem post_earned (db : PointsDb) (e : PointsLedger) (u : UserId) :
    (db.post e).earned u = db.earned u + e.earningFor u := by
  unfold PointsDb.earned PointsLedger.earningFor
  rw [PointsDb.post_wallet]
  by_cases hu : e.userId = u
  · rw [if_pos hu]
    simp only [PointWallet.credit, hu, true_and]
  · simp [hu]

namespace Projected

variable {db db' : PointsDb}

theorem initial (h : Initial db) : Projected db := by
  obtain ⟨hwallets, hledger, _, _⟩ := h
  constructor
  · intro u
    unfold PointsDb.available PointsDb.wallet PointsDb.ledgerBalance
    rw [hwallets, hledger, Table.get_empty, Table.total_empty]
    rfl
  · intro u
    unfold PointsDb.earned PointsDb.wallet PointsDb.ledgerEarnings
    rw [hwallets, hledger, Table.get_empty, Table.total_empty]
    rfl

/-- Tables with the same wallets and ledger are projected alike. -/
theorem congr (h : Projected db) (hwallet : ∀ u, db'.wallet u = db.wallet u)
    (hledger : db'.ledger = db.ledger) : Projected db' := by
  constructor
  · intro u
    unfold PointsDb.available PointsDb.ledgerBalance
    rw [hwallet, hledger]
    exact h.available u
  · intro u
    unfold PointsDb.earned PointsDb.ledgerEarnings
    rw [hwallet, hledger]
    exact h.earned u

/-- Posting a new entry moves the wallet and the sums by the same amount. -/
theorem post (h : Projected db) {e : PointsLedger} (hfree : db.ledger.get e.triple = none) :
    Projected (db.post e) := by
  constructor
  · intro u
    have hsum : (db.post e).ledgerBalance u = e.balanceFor u + db.ledgerBalance u :=
      Table.total_put_fresh e _ hfree
    rw [post_available, hsum, h.available u]
    omega
  · intro u
    have hsum : (db.post e).ledgerEarnings u = e.earningFor u + db.ledgerEarnings u :=
      Table.total_put_fresh e _ hfree
    rw [post_earned, hsum, h.earned u]
    omega

theorem openWallet (h : Projected db) (u : UserId) : Projected (db.openWallet u) :=
  h.congr (PointsDb.openWallet_wallet db u) (PointsDb.openWallet_ledger db u)

theorem change (h : Projected db) (hchange : Change db db') : Projected db' := by
  cases hchange with
  | same => exact h
  | openWallet u => exact h.openWallet u
  | grant claim user amount effectiveAt hpos hfree => exact h.post hfree
  | reverse original id operator reason effectiveAt _ _ _ hfree => exact h.post hfree
  | adjust user amount operation operator reason hreason hamount hfree => exact h.post hfree
  | request id user => exact (h.openWallet user).congr (fun _ => rfl) rfl
  | approve id redemption reservation now actor _ _ _ hfree =>
    exact (h.post hfree).congr (fun _ => rfl) rfl
  | reject id redemption =>
    exact (h.openWallet redemption.userId).congr (fun _ => rfl) rfl
  | fulfill => exact h.congr (fun _ => rfl) rfl
  | item => exact h.congr (fun _ => rfl) rfl
  | accounts => exact h.congr (fun _ => rfl) rfl

end Projected

theorem changes_projected : changes.Inductive Projected where
  init _ h := Projected.initial h
  step _ _ _ h hstep := h.change hstep

/-- In every interleaving of every number of sessions each wallet is the projection of the
ledger, and no user's earned points are negative. -/
theorem wallet_is_projection {ι : Type} [DecidableEq ι]
    {c : Config ι PointsDb (Session statements Call PointsError Receipt)}
    (hc : (system ι).Reach c) (u : UserId) :
    c.store.available u = c.store.ledgerBalance u ∧
      c.store.earned u = c.store.ledgerEarnings u ∧ 0 ≤ c.store.earned u := by
  have h := changes_projected.reach (store_changes hc)
  refine ⟨h.available u, h.earned u, ?_⟩
  rw [h.earned u]
  apply Table.total_nonneg
  intro t e _
  unfold PointsLedger.earningFor
  split <;> omega

/-- A reward of 50 points for claim 1 of user 7, and its reversal by administrator 9. -/
theorem wallet_is_projection_reversed :
    let c := service.serially (opening .empty) [.grant 1 7 50 (some 0),
      .reverse ⟨9, .admin⟩ (claimReward 1) (some ['x'])]
    (c.store.available 7 = 0 ∧ c.store.earned 7 = 50) ∧
      c.store.available 7 = c.store.ledgerBalance 7 ∧
        c.store.earned 7 = c.store.ledgerEarnings 7 ∧ 0 ≤ c.store.earned 7 :=
  ⟨by decide +kernel, wallet_is_projection (reach_serial_calls _ _) 7⟩

end CampusQuest.Points
