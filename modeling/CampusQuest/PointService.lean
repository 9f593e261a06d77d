import CampusQuest.PointAdministration
import CampusQuest.Redemptions

/-!
The points services as one system. Any number of sessions issue any calls; `Change` lists
what a committed call can do to the tables, with everything it checked, and the invariants
of the module are proved from it. Accounts and review grants are written by others.
-/

namespace CampusQuest.Points

open Tables Transactions Runs

inductive Call
  | grant (claim : ClaimId) (user : UserId) (amount : ℤ) (rankingEffectiveAt : Option Instant)
  | reverse (actor : Actor) (id : LedgerId) (reason : Option Text)
  | adjust (actor : Actor) (user : UserId) (amount : ℤ) (reason : Option Text)
      (operation : OperationId)
  | request (now : Instant) (termKey : Text) (id : RedemptionId) (user : UserId) (item : ItemId)
  | approve (now : Instant) (actor : Actor) (id : RedemptionId)
  | reject (now : Instant) (actor : Actor) (id : RedemptionId) (reason : Option Text)
  | fulfill (now : Instant) (actor : Actor) (id : RedemptionId) (note : Option Text)
  | createItem (actor : Actor) (id : ItemId) (shape : CatalogShape) (description : Option Text)
      (requiresManualReview : Bool) (fulfillmentInstructions : Option Text)
  | updateItem (actor : Actor) (id : ItemId) (changes : RewardItemChanges)
  | disableItem (actor : Actor) (id : ItemId) (reason : Option Text)
  | account (user : UserId) (role : Role)
  | delegate (teacher : UserId) (live : Bool)

inductive Receipt
  | entry (e : PointsLedger)
  | adjustment (answer : Except PointsError PointsLedger)
  | redemption (row : RewardRedemption)
  | item (row : RewardItem)
  | nothing

def program : Call → PointsTxn Receipt
  | .grant claim user amount at' => do
    return .entry (← grantAssignmentReward claim user amount at')
  | .reverse actor id reason => do
    return .entry (← reverseAssignmentReward actor id reason)
  | .adjust actor user amount reason operation => do
    return .adjustment (← adminAdjustPoints actor user amount reason operation)
  | .request now termKey id user item => do
    return .redemption (← requestRedemption now termKey id user item)
  | .approve now actor id => do
    return .redemption (← approveRedemption now actor id)
  | .reject now actor id reason => do
    return .redemption (← rejectRedemption now actor id reason)
  | .fulfill now actor id note => do
    return .redemption (← fulfillRedemption now actor id note)
  | .createItem actor id shape description review instructions => do
    return .item (← createRewardItem actor id shape description review instructions)
  | .updateItem actor id changes => do
    return .item (← updateRewardItem actor id changes)
  | .disableItem actor id reason => do
    return .item (← disableRewardItem actor id reason)
  | .account user role => do
    write (.role user role)
    return .nothing
  | .delegate teacher live => do
    if live = true then write (.grantReview teacher) else write (.revokeReview teacher)
    return .nothing

def service : Service statements Call PointsError Receipt := ⟨program⟩

/-- What a committed call does to the tables, under everything it has checked. -/
inductive Change (db : PointsDb) : PointsDb → Prop
  | same : Change db db
  | openWallet (u : UserId) : Change db (db.openWallet u)
  | grant (claim : ClaimId) (user : UserId) (amount : ℤ) (effectiveAt : Instant)
      (hpos : 0 < amount) (hfree : db.ledger.get (claimReward claim) = none) :
      Change db (db.post (rewardRow claim user amount effectiveAt hpos))
  | reverse (original : PointsLedger) (id : LedgerId) (operator : UserId) (reason : Text)
      (effectiveAt : Instant) (horiginal : db.ledger.get id = some original)
      (htype : original.ledgerType = .assignmentReward)
      (hat : original.rankingEffectiveAt = some effectiveAt)
      (hfree : db.ledger.get (claimReversal original.sourceType original.sourceId) = none) :
      Change db (db.post (reversalRow original id operator reason effectiveAt))
  | adjust (user : UserId) (amount : ℤ) (operation : OperationId) (operator : UserId)
      (reason : Text) (hreason : strip reason ≠ []) (hamount : amount ≠ 0)
      (hfree : db.ledger.get (adjustmentId operation) = none) :
      Change db (db.post (adjustmentRow user amount operation operator reason hreason hamount))
  | request (id : RedemptionId) (user : UserId) (itemId : ItemId) (item : RewardItem)
      (term : Text) (hitem : db.items.get itemId = some item)
      (hstock : ∀ n, item.stock = some n → (db.occupancy itemId : ℤ) < n)
      (hlimit : ∀ n, item.perUserTermLimit = some n →
        (db.termUsage user itemId term : ℤ) < n)
      (hspend : item.pointCost ≤ db.spendable user)
      (hredemption : db.redemptions.get id = none)
      (hreservation : db.reservations.get id = none) :
      Change db ((db.openWallet user).settle id (newRedemption user itemId item term)
        (newReservation user id item))
  | approve (id : RedemptionId) (redemption : RewardRedemption) (reservation : PointReservation)
      (now : Instant) (actor : UserId) (hredemption : db.redemptions.get id = some redemption)
      (hreviewable : redemption.status.reviewable)
      (hreservation : db.reservations.get id = some reservation)
      (hfree : db.ledger.get (redemptionRow id redemption actor).triple = none) :
      Change db ((db.post (redemptionRow id redemption actor)).settle id
        (redemption.decide .approved now actor redemption.rejectionReason)
        (reservation.consume now))
  | reject (id : RedemptionId) (redemption : RewardRedemption) (reservation : PointReservation)
      (now : Instant) (actor : UserId) (reason : Text)
      (hredemption : db.redemptions.get id = some redemption)
      (hreviewable : redemption.status.reviewable)
      (hreservation : db.reservations.get id = some reservation) :
      Change db ((db.openWallet redemption.userId).settle id
        (redemption.decide .rejected now actor (some reason)) (reservation.release now))
  | fulfill (id : RedemptionId) (redemption : RewardRedemption) (now : Instant)
      (note : Option Text) (hredemption : db.redemptions.get id = some redemption)
      (happroved : redemption.status = .approved) :
      Change db { db with redemptions := db.redemptions.put id (redemption.fulfill now note) }
  | item (id : ItemId) (row : RewardItem) : Change db { db with items := db.items.put id row }
  | accounts (roles : Table UserId Role) (grants : Table UserId Unit) :
      Change db { db with roles := roles, reviewGrants := grants }

section Outcomes

variable {db : PointsDb} {p p' : Pending statements}

theorem view_of_no_writes (h : p.writes = []) : p.view db = db := by
  unfold Pending.view
  rw [h]
  rfl

/-- Wrapping a result into a receipt adds nothing. -/
theorem ends_receipt {α : Type} {t : PointsTxn α} {f : α → Receipt} {a : Receipt}
    (h : (t >>= fun x => pure (f x)).Ends locking db p (.ok a) p') :
    ∃ x, t.Ends locking db p (.ok x) p' ∧ a = f x := by
  obtain ⟨x, p₁, ht, hpure⟩ := ends_seq_ok h
  obtain ⟨ha, rfl⟩ := ends_pure.mp hpure
  exact ⟨x, ht, Except.ok.inj ha⟩

/-- Every committed call is one of the listed changes. -/
theorem program_change {c : Call} {a : Receipt}
    (h : (program c).Ends locking db .start (.ok a) p') : Change db (p'.view db) := by
  cases c with
  | grant claim user amount at' =>
    obtain ⟨e, h, _⟩ := ends_receipt h
    rcases grantAssignmentReward_ends h with
      ⟨_, he⟩ | ⟨_, he⟩ | ⟨_, _, _, hw⟩ | ⟨t, hpos, _, hfree, _, hview, _⟩
    · cases he
    · cases he
    · rw [view_of_no_writes hw]
      exact .same
    · rw [hview]
      exact .grant claim user amount t hpos hfree
  | reverse actor id reason =>
    obtain ⟨e, h, _⟩ := ends_receipt h
    rcases reverseAssignmentReward_ends h with
      ⟨_, _, he⟩ | ⟨original, t, horiginal, htype, hat, ⟨_, _, he⟩ | ⟨hfree, _, hview, _⟩⟩
    · cases he
    · cases he
    · rw [hview]
      exact .reverse original id actor.userId _ t horiginal htype hat hfree
  | adjust actor user amount reason operation =>
    obtain ⟨answer, h, _⟩ := ends_receipt h
    rcases adminAdjustPoints_ends h with
      ⟨_, hview | hview, _⟩ | ⟨hreason, hamount, hfree, _, hview, _⟩
    · rw [hview]
      exact .same
    · rw [hview]
      exact .openWallet user
    · rw [hview]
      exact .adjust user amount operation actor.userId _ hreason hamount hfree
  | request now termKey id user item =>
    obtain ⟨row, h, _⟩ := ends_receipt h
    obtain ⟨it, hitem, hrow, hstock, hlimit, hspend, hred, hres, hview, _⟩ :=
      requestRedemption_ends h
    subst hrow
    rw [hview]
    exact .request id user item it _ hitem hstock hlimit hspend hred hres
  | approve now actor id =>
    obtain ⟨row, h, _⟩ := ends_receipt h
    rcases approveRedemption_ends h with ⟨_, _, hw⟩ |
      ⟨redemption, reservation, hred, hreviewable, hres, hfree, hrow, hview, _⟩
    · rw [view_of_no_writes hw]
      exact .same
    · subst hrow
      rw [hview]
      exact .approve id redemption reservation now actor.userId hred hreviewable hres hfree
  | reject now actor id reason =>
    obtain ⟨row, h, _⟩ := ends_receipt h
    rcases rejectRedemption_ends h with ⟨_, _, hw⟩ |
      ⟨redemption, reservation, hred, hreviewable, hres, hrow, hview, _⟩
    · rw [view_of_no_writes hw]
      exact .same
    · subst hrow
      rw [hview]
      exact .reject id redemption reservation now actor.userId _ hred hreviewable hres
  | fulfill now actor id note =>
    obtain ⟨row, h, _⟩ := ends_receipt h
    rcases fulfillRedemption_ends h with ⟨_, _, hw⟩ |
      ⟨redemption, hred, happroved, hrow, hview, _⟩
    · rw [view_of_no_writes hw]
      exact .same
    · subst hrow
      rw [hview]
      exact .fulfill id redemption now _ hred happroved
  | createItem actor id shape description review instructions =>
    obtain ⟨row, h, _⟩ := ends_receipt h
    obtain ⟨row, hview, _⟩ := createRewardItem_ends h
    rw [hview]
    exact .item id row
  | updateItem actor id changes =>
    obtain ⟨row, h, _⟩ := ends_receipt h
    obtain ⟨row, hview, _⟩ := updateRewardItem_ends h
    rw [hview]
    exact .item id row
  | disableItem actor id reason =>
    obtain ⟨row, h, _⟩ := ends_receipt h
    rcases disableRewardItem_ends h with hw | ⟨row, hview, _⟩
    · rw [view_of_no_writes hw]
      exact .same
    · rw [hview]
      exact .item id row
  | account user role =>
    unfold program at h
    rw [ends_write] at h
    obtain ⟨_, rfl⟩ := ends_pure.mp h
    exact .accounts (db.roles.put user role) db.reviewGrants
  | delegate teacher live =>
    unfold program at h
    cases live with
    | true =>
      simp only [if_true] at h
      rw [ends_write] at h
      obtain ⟨_, rfl⟩ := ends_pure.mp h
      exact .accounts db.roles (db.reviewGrants.put teacher ())
    | false =>
      simp only [Bool.false_eq_true, if_false] at h
      rw [ends_write] at h
      obtain ⟨_, rfl⟩ := ends_pure.mp h
      exact .accounts db.roles (db.reviewGrants.remove teacher)

theorem covered_of_extends {allowed : Write → Prop} (h : Extends allowed .start p')
    (hallowed : ∀ w, allowed w → Write.Guarded (fun k => k ∈ p'.locks) db w) :
    Covered p' db := by
  intro w hw
  rcases h.writes w hw with hold | hnew
  · cases hold
  · exact hallowed w hnew

theorem covered_of_no_writes (h : p'.writes = []) : Covered p' db := by
  intro w hw
  rw [h] at hw
  cases hw

theorem guarded_posting {L : LockKey → Prop} {e : PointsLedger} {w : Write}
    (hfree : db.ledger.get e.triple = none) (h : Posting e w) : Write.Guarded L db w := by
  rcases h with rfl | ⟨_, rfl⟩
  · exact hfree
  · trivial

/-- A redemption and its reservation belong to one user and carry the same points. -/
def Paired (db : PointsDb) : Prop :=
  ∀ id redemption reservation, db.redemptions.get id = some redemption →
    db.reservations.get id = some reservation →
    reservation.userId = redemption.userId ∧ reservation.points = redemption.points

theorem RedemptionStatus.reviewable.occupying {s : RedemptionStatus} (h : s.reviewable) :
    s.occupying = true := by
  rcases h with rfl | rfl <;> rfl

/-- Every call makes its writes under the locks that guard them. -/
theorem program_covered {c : Call} {a : Receipt} (hpaired : Paired db)
    (h : (program c).Ends locking db .start (.ok a) p') : Covered p' db := by
  cases c with
  | grant claim user amount at' =>
    obtain ⟨e, h, _⟩ := ends_receipt h
    rcases grantAssignmentReward_ends h with
      ⟨_, he⟩ | ⟨_, he⟩ | ⟨_, _, _, hw⟩ | ⟨t, hpos, _, hfree, _, _, hext⟩
    · cases he
    · cases he
    · exact covered_of_no_writes hw
    · have hfree : db.ledger.get (rewardRow claim user amount t hpos).triple = none := hfree
      exact covered_of_extends hext fun w hw => guarded_posting hfree hw
  | reverse actor id reason =>
    obtain ⟨e, h, _⟩ := ends_receipt h
    rcases reverseAssignmentReward_ends h with
      ⟨_, _, he⟩ | ⟨original, t, _, _, _, ⟨_, _, he⟩ | ⟨hfree, _, _, hext⟩⟩
    · cases he
    · cases he
    · have hfree : db.ledger.get (reversalRow original id actor.userId (strippedReason reason)
        t).triple = none := hfree
      exact covered_of_extends hext fun w hw => guarded_posting hfree hw
  | adjust actor user amount reason operation =>
    obtain ⟨answer, h, _⟩ := ends_receipt h
    rcases adminAdjustPoints_ends h with ⟨_, _, hext⟩ | ⟨hreason, hamount, hfree, _, _, hext⟩
    · refine covered_of_extends hext fun w hw => ?_
      obtain ⟨_, rfl⟩ := hw
      trivial
    · have hfree : db.ledger.get (adjustmentRow user amount operation actor.userId
        (strippedReason reason) hreason hamount).triple = none := hfree
      exact covered_of_extends hext fun w hw => guarded_posting hfree hw
  | request now termKey id user item =>
    obtain ⟨row, h, _⟩ := ends_receipt h
    obtain ⟨it, _, hrow, _, _, _, _, hres, _, hitemLock, hwalletLock, hext⟩ :=
      requestRedemption_ends h
    subst hrow
    refine covered_of_extends hext fun w hw => ?_
    rcases hw with ⟨_, rfl⟩ | rfl | rfl
    · trivial
    · exact fun _ => Or.inl ⟨hitemLock, hwalletLock⟩
    · refine ⟨hwalletLock, fun row₀ hrow₀ => ?_⟩
      rw [hres] at hrow₀
      cases hrow₀
  | approve now actor id =>
    obtain ⟨row, h, _⟩ := ends_receipt h
    rcases approveRedemption_ends h with ⟨_, _, hw⟩ |
      ⟨redemption, reservation, hred, hreviewable, hres, hfree, hrow, _, hwalletLock, hext⟩
    · exact covered_of_no_writes hw
    · subst hrow
      have huser := (hpaired id redemption reservation hred hres).1
      refine covered_of_extends hext fun w hw => ?_
      rcases hw with hpost | rfl | rfl
      · exact guarded_posting hfree hpost
      · exact fun _ => Or.inr ⟨redemption, hred, rfl, rfl, rfl, hreviewable.occupying⟩
      · refine ⟨?_, fun row₀ hrow₀ => ?_⟩
        · change LockKey.wallet reservation.userId ∈ p'.locks
          rw [huser]
          exact hwalletLock
        · rw [hres] at hrow₀
          cases hrow₀
          rw [huser]
          exact hwalletLock
  | reject now actor id reason =>
    obtain ⟨row, h, _⟩ := ends_receipt h
    rcases rejectRedemption_ends h with ⟨_, _, hw⟩ |
      ⟨redemption, reservation, hred, hreviewable, hres, hrow, _, hwalletLock, hext⟩
    · exact covered_of_no_writes hw
    · subst hrow
      have huser := (hpaired id redemption reservation hred hres).1
      refine covered_of_extends hext fun w hw => ?_
      rcases hw with ⟨_, rfl⟩ | rfl | rfl
      · trivial
      · intro hocc
        cases hocc
      · refine ⟨?_, fun row₀ hrow₀ => ?_⟩
        · change LockKey.wallet reservation.userId ∈ p'.locks
          rw [huser]
          exact hwalletLock
        · rw [hres] at hrow₀
          cases hrow₀
          rw [huser]
          exact hwalletLock
  | fulfill now actor id note =>
    obtain ⟨row, h, _⟩ := ends_receipt h
    rcases fulfillRedemption_ends h with ⟨_, _, hw⟩ | ⟨redemption, hred, happroved, hrow, _, hext⟩
    · exact covered_of_no_writes hw
    · subst hrow
      refine covered_of_extends hext fun w hw => ?_
      subst hw
      refine fun _ => Or.inr ⟨redemption, hred, rfl, rfl, rfl, ?_⟩
      rw [happroved]
      rfl
  | createItem actor id shape description review instructions =>
    obtain ⟨row, h, _⟩ := ends_receipt h
    obtain ⟨row, _, hext⟩ := createRewardItem_ends h
    refine covered_of_extends hext fun w hw => ?_
    subst hw
    trivial
  | updateItem actor id changes =>
    obtain ⟨row, h, _⟩ := ends_receipt h
    obtain ⟨row, _, hext⟩ := updateRewardItem_ends h
    refine covered_of_extends hext fun w hw => ?_
    subst hw
    trivial
  | disableItem actor id reason =>
    obtain ⟨row, h, _⟩ := ends_receipt h
    rcases disableRewardItem_ends h with hw | ⟨row, _, hext⟩
    · exact covered_of_no_writes hw
    · refine covered_of_extends hext fun w hw => ?_
      subst hw
      trivial
  | account user role =>
    unfold program at h
    rw [ends_write] at h
    obtain ⟨_, rfl⟩ := ends_pure.mp h
    refine covered_of_extends (Extends.add rfl) fun w hw => ?_
    subst hw
    trivial
  | delegate teacher live =>
    unfold program at h
    cases live with
    | true =>
      simp only [if_true] at h
      rw [ends_write] at h
      obtain ⟨_, rfl⟩ := ends_pure.mp h
      refine covered_of_extends (Extends.add rfl) fun w hw => ?_
      subst hw
      trivial
    | false =>
      simp only [Bool.false_eq_true, if_false] at h
      rw [ends_write] at h
      obtain ⟨_, rfl⟩ := ends_pure.mp h
      refine covered_of_extends (Extends.add rfl) fun w hw => ?_
      subst hw
      trivial

end Outcomes

namespace Paired

variable {db db' : PointsDb}

theorem openWallet (h : Paired db) (u : UserId) : Paired (db.openWallet u) := by
  unfold Paired
  rw [PointsDb.openWallet_redemptions, PointsDb.openWallet_reservations]
  exact h

theorem settle {id : RedemptionId} {row : RewardRedemption} {reservation : PointReservation}
    (h : Paired db)
    (hrow : reservation.userId = row.userId ∧ reservation.points = row.points) :
    Paired (db.settle id row reservation) := by
  intro id' redemption' reservation' hred hres
  rcases Table.get_put_eq_some hred with ⟨rfl, rfl⟩ | ⟨hne, hred⟩
  · rcases Table.get_put_eq_some hres with ⟨_, rfl⟩ | ⟨hne, _⟩
    · exact hrow
    · exact absurd rfl hne
  · rcases Table.get_put_eq_some hres with ⟨heq, _⟩ | ⟨_, hres⟩
    · exact absurd heq hne
    · exact h id' redemption' reservation' hred hres

theorem change (h : Paired db) (hchange : Change db db') : Paired db' := by
  cases hchange with
  | same => exact h
  | openWallet u => exact h.openWallet u
  | grant => exact h
  | reverse => exact h
  | adjust => exact h
  | item => exact h
  | accounts => exact h
  | request id user itemId item term => exact (h.openWallet user).settle ⟨rfl, rfl⟩
  | approve id redemption reservation now actor hred _ hres =>
    have hposted : Paired (db.post (redemptionRow id redemption actor)) := h
    exact hposted.settle (h id redemption reservation hred hres)
  | reject id redemption reservation now actor reason hred _ hres =>
    exact (h.openWallet redemption.userId).settle (h id redemption reservation hred hres)
  | fulfill id redemption now note hred₀ =>
    intro id' redemption' reservation' hred hres
    rcases Table.get_put_eq_some hred with ⟨rfl, rfl⟩ | ⟨_, hred⟩
    · exact h id' redemption reservation' hred₀ hres
    · exact h id' redemption' reservation' hred hres

end Paired

/-- The points tables before the first posting, with any accounts and any catalogue. -/
def Initial (db : PointsDb) : Prop :=
  db.wallets = .empty ∧ db.ledger = .empty ∧ db.redemptions = .empty ∧ db.reservations = .empty

theorem paired_initial {db : PointsDb} (h : Initial db) : Paired db := by
  obtain ⟨_, _, hred, _⟩ := h
  intro id redemption reservation hget
  rw [hred, Table.get_empty] at hget
  cases hget

/-- Every entry stands under its own source triple. -/
def Keyed (db : PointsDb) : Prop := ∀ t e, db.ledger.get t = some e → e.triple = t

namespace Keyed

variable {db db' : PointsDb}

theorem initial (h : Initial db) : Keyed db := by
  obtain ⟨_, hledger, _, _⟩ := h
  intro t e he
  rw [hledger, Table.get_empty] at he
  cases he

theorem post (h : Keyed db) (e : PointsLedger) : Keyed (db.post e) := by
  intro t e' he'
  rcases Table.get_put_eq_some he' with ⟨rfl, rfl⟩ | ⟨_, hold⟩
  · rfl
  · exact h t e' hold

theorem change (h : Keyed db) (hchange : Change db db') : Keyed db' := by
  cases hchange with
  | same => exact h
  | openWallet u =>
    unfold Keyed
    rw [PointsDb.openWallet_ledger]
    exact h
  | grant claim user amount effectiveAt hpos => exact h.post _
  | reverse original id operator reason effectiveAt => exact h.post _
  | adjust user amount operation operator reason hreason hamount => exact h.post _
  | request id user =>
    change ∀ t e, (db.openWallet user).ledger.get t = some e → e.triple = t
    rw [PointsDb.openWallet_ledger]
    exact h
  | approve id redemption reservation now actor => exact h.post _
  | reject id redemption =>
    change ∀ t e, (db.openWallet redemption.userId).ledger.get t = some e → e.triple = t
    rw [PointsDb.openWallet_ledger]
    exact h
  | fulfill => exact h
  | item => exact h
  | accounts => exact h

end Keyed

theorem service_sound : service.Sound locking Paired where
  covered _ _ _ _ hpaired h := program_covered hpaired h
  keeps _ _ _ _ hpaired h := hpaired.change (program_change h)

abbrev system (ι : Type) [DecidableEq ι] := service.system locking ι Initial

def changes : System PointsDb Unit where
  init := Initial
  step db _ db' := Change db db'

theorem changes_keyed : changes.Inductive Keyed where
  init _ h := Keyed.initial h
  step _ _ _ h hstep := h.change hstep

/-- Every store of the interleaved system is reached by whole changes. -/
theorem store_changes {ι : Type} [DecidableEq ι]
    {c : Locking.Config ι PointsDb (Session statements Call PointsError Receipt)}
    (hc : (system ι).Reach c) : changes.Reach c.store := by
  have hatomic := service_sound.store_reach (fun _ => paired_initial) hc
  generalize c.store = db at hatomic
  induction hatomic with
  | init h => exact .init h
  | step _ hstep ih =>
    obtain ⟨p, hends, rfl⟩ := hstep
    exact .step (a := ()) ih (program_change hends)

def opening (items : Table ItemId RewardItem) :
    Locking.Config Unit PointsDb (Session statements Call PointsError Receipt) where
  store := ⟨.empty, .empty, .empty, items, .empty, .empty, .empty⟩
  proc _ := .idle

theorem reach_serial_calls (items : Table ItemId RewardItem) (calls : List Call) :
    (system Unit).Reach (service.serially (opening items) calls) := by
  apply Service.reach_serially
  · exact Runs.System.Reach.init ⟨⟨rfl, rfl, rfl, rfl⟩, fun _ => rfl⟩
  · intro a v t p hrunning
    cases hrunning

def poster : RewardItem where
  name := ['p']
  description := none
  pointCost := 30
  stock := some 1
  perUserTermLimit := some 1
  availableFrom := none
  availableUntil := none
  enabled := true
  requiresManualReview := false
  fulfillmentInstructions := none
  point_cost := by decide
  stock_nonneg := by simp
  per_user_term_limit := by simp
  window_ordering := by simp

end CampusQuest.Points
