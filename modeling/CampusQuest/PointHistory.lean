import CampusQuest.AdjustmentOnce
import CampusQuest.Freezes

/-!
What the points services never rewrite. The ledger only grows, a redemption is decided once and
fulfilled at most once after that, and the points of a decided one are never frozen again.
-/

namespace CampusQuest.Points

open Locking Runs Tables Transactions

/-- What may become of a redemption. -/
structure RewardRedemption.Later (r r' : RewardRedemption) : Prop where
  filed : r'.userId = r.userId ∧ r'.rewardItemId = r.rewardItemId ∧ r'.termKey = r.termKey ∧
    r'.points = r.points
  decided : ¬ r.status.reviewable → r'.decidedAt = r.decidedAt ∧ r'.decidedBy = r.decidedBy ∧
    r'.rejectionReason = r.rejectionReason
  approved : r.status = .approved → r'.status = .approved ∨ r'.status = .fulfilled
  final : r.status = .rejected ∨ r.status = .fulfilled → r' = r

namespace RewardRedemption.Later

variable {r r' r'' : RewardRedemption}

theorem refl (r : RewardRedemption) : r.Later r :=
  ⟨⟨rfl, rfl, rfl, rfl⟩, fun _ => ⟨rfl, rfl, rfl⟩, Or.inl, fun _ => rfl⟩

theorem stays_decided (h : r.Later r') (hdecided : ¬ r.status.reviewable) :
    ¬ r'.status.reviewable := by
  unfold RedemptionStatus.reviewable at hdecided ⊢
  cases hstatus : r.status with
  | requested | underReview => simp [hstatus] at hdecided
  | approved => rcases h.approved hstatus with h' | h' <;> simp [h']
  | rejected => simp [h.final (Or.inl hstatus), hstatus]
  | fulfilled => simp [h.final (Or.inr hstatus), hstatus]

theorem trans (h : r.Later r') (h' : r'.Later r'') : r.Later r'' := by
  obtain ⟨huser, hitem, hterm, hpoints⟩ := h.filed
  obtain ⟨huser', hitem', hterm', hpoints'⟩ := h'.filed
  refine ⟨⟨huser'.trans huser, hitem'.trans hitem, hterm'.trans hterm, hpoints'.trans hpoints⟩,
    fun hdecided => ?_, fun happroved => ?_, fun hfinal => ?_⟩
  · obtain ⟨hat, hby, hreason⟩ := h.decided hdecided
    obtain ⟨hat', hby', hreason'⟩ := h'.decided (h.stays_decided hdecided)
    exact ⟨hat'.trans hat, hby'.trans hby, hreason'.trans hreason⟩
  · rcases h.approved happroved with hsame | hfulfilled
    · exact h'.approved hsame
    · rw [h'.final (Or.inr hfulfilled)]
      exact Or.inr hfulfilled
  · obtain rfl := h.final hfinal
    exact h'.final hfinal

theorem decide (hreviewable : r.status.reviewable) (status : RedemptionStatus) (now : Instant)
    (actor : UserId) (reason : Option Text) : r.Later (r.decide status now actor reason) := by
  refine ⟨⟨rfl, rfl, rfl, rfl⟩, fun h => absurd hreviewable h, fun h => ?_, fun h => ?_⟩ <;>
    rcases hreviewable with hr | hr <;> simp [hr] at h

theorem fulfill (happroved : r.status = .approved) (now : Instant) (note : Option Text) :
    r.Later (r.fulfill now note) :=
  ⟨⟨rfl, rfl, rfl, rfl⟩, fun _ => ⟨rfl, rfl, rfl⟩, fun _ => Or.inr rfl,
    fun h => by simp [happroved] at h⟩

end RewardRedemption.Later

structure History (db db' : PointsDb) : Prop where
  ledger : ∀ t e, db.ledger.get t = some e → db'.ledger.get t = some e
  redemptions : ∀ id r, db.redemptions.get id = some r →
    ∃ r', db'.redemptions.get id = some r' ∧ r.Later r'
  reservations : ∀ id r, db.reservations.get id = some r → r.status ≠ .active →
    db'.reservations.get id = some r

variable {db db' db'' : PointsDb}

theorem History.trans (h : History db db') (h' : History db' db'') : History db db'' := by
  refine ⟨fun t e he => h'.ledger t e (h.ledger t e he), fun id r hr => ?_, fun id r hr hdone =>
    h'.reservations id r (h.reservations id r hr hdone) hdone⟩
  obtain ⟨r', hr', hlater⟩ := h.redemptions id r hr
  obtain ⟨r'', hr'', hlater'⟩ := h'.redemptions id r' hr'
  exact ⟨r'', hr'', hlater.trans hlater'⟩

/-- The redemptions and the reservations that a change leaves alone. -/
theorem History.same (hchange : Change db db') (hred : db'.redemptions = db.redemptions)
    (hres : db'.reservations = db.reservations) : History db db' :=
  ⟨fun _ _ he => hchange.keeps_entry he, fun _ r hr => ⟨r, by rw [hred, hr], .refl r⟩,
    fun _ _ hr _ => by rw [hres, hr]⟩

/-- The one redemption that a change writes, together with its reservation. -/
theorem History.settle {db₁ : PointsDb} {id : RedemptionId} {row : RewardRedemption}
    {reservation : PointReservation} (hchange : Change db (db₁.settle id row reservation))
    (hred : db₁.redemptions = db.redemptions) (hres : db₁.reservations = db.reservations)
    (hlater : ∀ r, db.redemptions.get id = some r → r.Later row)
    (hopen : ∀ r, db.reservations.get id = some r → r.status = .active) :
    History db (db₁.settle id row reservation) := by
  refine ⟨fun _ _ he => hchange.keeps_entry he, fun j r hr => ?_, fun j r hr hdone => ?_⟩
  · by_cases hj : j = id
    · subst hj
      exact ⟨row, Table.get_put_self _ _ _, hlater r hr⟩
    · refine ⟨r, ?_, .refl r⟩
      change (db₁.redemptions.put id row).get j = some r
      rw [Table.get_put_of_ne _ _ hj, hred, hr]
  · have hj : j ≠ id := by
      rintro rfl
      exact hdone (hopen r hr)
    change (db₁.reservations.put id reservation).get j = some r
    rw [Table.get_put_of_ne _ _ hj, hres, hr]

/-- An undecided redemption still has its points frozen. -/
theorem Frozen.open_reservation (h : Frozen db) {id : RedemptionId} {row : RewardRedemption}
    (hrow : db.redemptions.get id = some row) (hreviewable : row.status.reviewable)
    {r : PointReservation} (hr : db.reservations.get id = some r) : r.status = .active := by
  obtain ⟨reservation, hres, hstatus, _⟩ := (h.settled id row hrow).reserved
  obtain rfl := Option.some.inj (hres.symm.trans hr)
  rcases hreviewable with hr | hr <;> rw [hstatus, hr] <;> rfl

theorem Change.history (h : Change db db') (hfrozen : Frozen db) : History db db' := by
  cases h with
  | same => exact .same .same rfl rfl
  | openWallet u =>
    exact .same (.openWallet u) (PointsDb.openWallet_redemptions db u)
      (PointsDb.openWallet_reservations db u)
  | grant claim user amount at' hpos hfree =>
    exact .same (.grant claim user amount at' hpos hfree) rfl rfl
  | reverse original id operator reason at' horiginal htype hat hfree =>
    exact .same (.reverse original id operator reason at' horiginal htype hat hfree) rfl rfl
  | adjust user amount operation operator reason hreason hamount hfree =>
    exact .same (.adjust user amount operation operator reason hreason hamount hfree) rfl rfl
  | request id user itemId item term hitem hstock hlimit hspend hred hres =>
    refine .settle (.request id user itemId item term hitem hstock hlimit hspend hred hres)
      (PointsDb.openWallet_redemptions db user) (PointsDb.openWallet_reservations db user)
      (fun r hr => ?_) fun r hr => ?_
    · rw [hred] at hr
      cases hr
    · rw [hres] at hr
      cases hr
  | approve id row reservation now actor hrow hreviewable hres hfree =>
    refine .settle (.approve id row reservation now actor hrow hreviewable hres hfree) rfl rfl
      (fun r hr => ?_) fun r hr => hfrozen.open_reservation hrow hreviewable hr
    obtain rfl := Option.some.inj (hrow.symm.trans hr)
    exact .decide hreviewable _ _ _ _
  | reject id row reservation now actor reason hrow hreviewable hres =>
    refine .settle (.reject id row reservation now actor reason hrow hreviewable hres)
      (PointsDb.openWallet_redemptions db _) (PointsDb.openWallet_reservations db _)
      (fun r hr => ?_) fun r hr => hfrozen.open_reservation hrow hreviewable hr
    obtain rfl := Option.some.inj (hrow.symm.trans hr)
    exact .decide hreviewable _ _ _ _
  | fulfill id row now note hrow happroved =>
    refine ⟨fun _ _ he => he, fun j r hr => ?_, fun _ _ hr _ => hr⟩
    by_cases hj : j = id
    · subst hj
      obtain rfl := Option.some.inj (hrow.symm.trans hr)
      exact ⟨_, Table.get_put_self _ _ _, .fulfill happroved now note⟩
    · exact ⟨r, (Table.get_put_of_ne _ _ hj).trans hr, .refl r⟩
  | item id row => exact .same (.item id row) rfl rfl
  | accounts roles grants => exact .same (.accounts roles grants) rfl rfl

/-- Over every run and interleaving of the points services the history stands. -/
theorem history_stands {ι : Type} [DecidableEq ι]
    {c c' : Config ι PointsDb (Session statements Call PointsError Receipt)} {l : List _}
    (hc : (system ι).Reach c) (hrun : (system ι).Run c l c') : History c.store c'.store := by
  refine hrun.keeps (P := fun c' => History c.store c'.store) (fun c₁ a c₂ hc₁ h hstep => ?_) hc
    (.same .same rfl rfl)
  rcases service_sound.store_step (fun _ => paired_initial) hc₁ hstep with
    hsame | ⟨_, _, p, hends, hstore⟩
  · rw [hsame]
    exact h
  · rw [hstore]
    exact h.trans ((program_change hends).history (changes_frozen.reach (store_changes hc₁)))

theorem history_stands_poster :
    let c' := service.serially (opening (Table.empty.put 5 poster)) posterRedeemed
    (c'.store.redemptions.get 1).map RewardRedemption.status = some .approved ∧
      ∃ c l, (system Unit).Reach c ∧ (system Unit).Run c l c' ∧ History c.store c'.store := by
  refine ⟨by decide +kernel, ?_⟩
  obtain ⟨c, l, hc, hstep⟩ := Service.last_step (reach_serial_calls _ posterRedeemed) rfl
  exact ⟨c, _, hc, .snoc (.nil c) hstep, history_stands hc (.snoc (.nil c) hstep)⟩

end CampusQuest.Points
