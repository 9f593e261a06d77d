import CampusQuest.PointService

/-!
Stock and term slots. Occupancy is counted over the redemptions, so an accepted request is
safe because the counts it checked cannot rise before it commits: new redemptions of an item
are made under the item's lock, and those of a user under the wallet's.
-/

namespace CampusQuest.Points

open Tables Transactions Locking

structure WithinLimits (db : PointsDb) (itemId : ItemId) (item : RewardItem) (user : UserId)
    (term : Text) : Prop where
  stock : ∀ n, item.stock = some n → (db.occupancy itemId : ℤ) ≤ n
  term_limit : ∀ n, item.perUserTermLimit = some n → (db.termUsage user itemId term : ℤ) ≤ n

section Requests

variable {db : PointsDb} {id : RedemptionId} {user : UserId} {itemId : ItemId}
  {item : RewardItem} {term : Text} {reservation : PointReservation}

theorem settle_request_occupancy (hfree : db.redemptions.get id = none) :
    (db.settle id (newRedemption user itemId item term) reservation).occupancy itemId =
      db.occupancy itemId + 1 := by
  have hput := Table.count_put_fresh (fun _ (r : RewardRedemption) => r.occupies itemId)
    (newRedemption user itemId item term) hfree
  have hown : (newRedemption user itemId item term).occupies itemId := ⟨rfl, rfl⟩
  rw [if_pos hown] at hput
  unfold PointsDb.occupancy
  calc
    _ = 1 + db.redemptions.count fun _ r => r.occupies itemId := hput
    _ = _ := by omega

/-- A new redemption uses one slot of its user's term. -/
theorem settle_request_termUsage (hfree : db.redemptions.get id = none) :
    (db.settle id (newRedemption user itemId item term) reservation).termUsage user itemId term =
      db.termUsage user itemId term + 1 := by
  have hput := Table.count_put_fresh
    (fun _ (r : RewardRedemption) => r.occupiesTerm user itemId term)
    (newRedemption user itemId item term) hfree
  have hown : (newRedemption user itemId item term).occupiesTerm user itemId term :=
    ⟨rfl, rfl, rfl, rfl⟩
  rw [if_pos hown] at hput
  unfold PointsDb.termUsage
  calc
    _ = 1 + db.redemptions.count fun _ r => r.occupiesTerm user itemId term := hput
    _ = _ := by omega

end Requests

/-- No oversell in any interleaving: an accepted request commits with the item's occupancy
within its stock and its user's slots within the term limit, as the item's row then is. -/
theorem no_oversell {ι : Type} [DecidableEq ι]
    {c c' : Config ι PointsDb (Session statements Call PointsError Receipt)} {i : ι}
    {l : Option (Call × Receipt)} {now : Instant} {term : Text} {id : RedemptionId}
    {user : UserId} {itemId : ItemId} {receipt : Receipt} (hc : (system ι).Reach c)
    (hstep : (system ι).step c (i, l) c')
    (hended : c'.proc i = .ended (.request now term id user itemId) (.ok receipt)) :
    ∃ item row, c'.store.items.get itemId = some item ∧ receipt = .redemption row ∧
      c'.store.redemptions.get id = some row ∧ row.userId = user ∧ row.rewardItemId = itemId ∧
      WithinLimits c'.store itemId item user row.termKey := by
  obtain ⟨p, hends, hstore⟩ := service_sound.ends (fun _ => paired_initial) hc hstep hended
  rcases hstore with ⟨_, _, hview⟩ | ⟨_, hr, _⟩
  · obtain ⟨row, hends, hreceipt⟩ := ends_receipt hends
    obtain ⟨item, hitem, hrow, hstock, hlimit, _, hfree, _, hcommit, _⟩ :=
      requestRedemption_ends hends
    subst hrow
    have hopen : (c.store.openWallet user).redemptions.get id = none := by
      rw [PointsDb.openWallet_redemptions]
      exact hfree
    refine ⟨item, _, ?_, hreceipt, ?_, rfl, rfl, ?_, ?_⟩
    · rw [hview, hcommit]
      change (c.store.openWallet user).items.get itemId = some item
      rw [PointsDb.openWallet_items]
      exact hitem
    · rw [hview, hcommit]
      exact Table.get_put_self _ _ _
    · intro n hn
      have hless := hstock n hn
      rw [hview, hcommit, settle_request_occupancy hopen, PointsDb.openWallet_occupancy]
      push_cast
      omega
    · intro n hn
      have hless := hlimit n hn
      change (c'.store.termUsage user itemId (strip term) : ℤ) ≤ n
      rw [hview, hcommit, settle_request_termUsage hopen, PointsDb.openWallet_termUsage]
      push_cast
      omega
  · cases hr

theorem exists_of_isOk {ε α : Type} {r : Except ε α} (h : r.isOk = true) : ∃ a, r = .ok a := by
  cases r with
  | ok a => exact ⟨a, rfl⟩
  | error e => cases h

def posterRequested : List Call := [.grant 1 7 50 (some 0), .request 1 ['T'] 1 7 5]

theorem no_oversell_poster :
    let db := (service.serially (opening (Table.empty.put 5 poster)) posterRequested).store
    db.occupancy 5 = 1 ∧ ∃ item row, db.items.get 5 = some item ∧
      db.redemptions.get 1 = some row ∧ WithinLimits db 5 item 7 row.termKey := by
  refine ⟨by decide +kernel, ?_⟩
  have hreach := reach_serial_calls (Table.empty.put 5 poster) posterRequested
  obtain ⟨receipt, hok⟩ : ∃ receipt, (service.serially (opening (Table.empty.put 5 poster))
      posterRequested).proc () = .ended (.request 1 ['T'] 1 7 5) (.ok receipt) := by
    have haccepted : ((service.program (.request 1 ['T'] 1 7 5)).exec (service.serially
        (opening (Table.empty.put 5 poster)) (posterRequested.take 1)).store
          .start none).1.isOk = true := by decide +kernel
    obtain ⟨receipt, hreceipt⟩ := exists_of_isOk haccepted
    exact ⟨receipt, congrArg _ hreceipt⟩
  obtain ⟨c, l, hc, hstep⟩ := Service.last_step hreach hok
  obtain ⟨item, row, hitem, _, hrow, _, _, hlimits⟩ := no_oversell hc hstep hok
  exact ⟨item, row, hitem, hrow, hlimits⟩

end CampusQuest.Points
