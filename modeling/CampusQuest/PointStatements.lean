import CampusQuest.PointRows
import CampusQuest.Sessions

/-!
The statements of the points services and what the row locks protect. Wallet, item,
redemption and reservation rows are read under their own lock; the occupancy of an item
is protected by the item lock against new requests only, so it may fall while the lock
is held; the points frozen for a user are protected by the wallet lock.
-/

namespace CampusQuest.Points

open Tables Transactions

inductive LockKey
  | role (u : UserId)
  | wallet (u : UserId)
  | entry (t : LedgerId)
  | item (i : ItemId)
  | redemption (r : RedemptionId)
  | reservation (r : RedemptionId)
  | reviewGrant (u : UserId)
  deriving DecidableEq, Repr

inductive Query
  | role (u : UserId)
  | wallet (u : UserId)
  | entry (t : LedgerId)
  | item (i : ItemId)
  | redemption (r : RedemptionId)
  | reservation (r : RedemptionId)
  | reviewGrant (u : UserId)
  | occupancy (i : ItemId)
  | termUsage (u : UserId) (i : ItemId) (term : Text)
  | frozen (u : UserId)

abbrev Query.Answer : Query → Type
  | .role _ => Option Role
  | .wallet _ => Option PointWallet
  | .entry _ => Option PointsLedger
  | .item _ => Option RewardItem
  | .redemption _ => Option RewardRedemption
  | .reservation _ => Option PointReservation
  | .reviewGrant _ => Option Unit
  | .occupancy _ => ℕ
  | .termUsage _ _ _ => ℕ
  | .frozen _ => ℤ

def Query.answer : (q : Query) → PointsDb → q.Answer
  | .role u, db => db.roles.get u
  | .wallet u, db => db.wallets.get u
  | .entry t, db => db.ledger.get t
  | .item i, db => db.items.get i
  | .redemption r, db => db.redemptions.get r
  | .reservation r, db => db.reservations.get r
  | .reviewGrant u, db => db.reviewGrants.get u
  | .occupancy i, db => db.occupancy i
  | .termUsage u i term, db => db.termUsage u i term
  | .frozen u, db => db.frozen u

inductive Write
  | role (u : UserId) (r : Role)
  | wallet (u : UserId) (w : PointWallet)
  | entry (e : PointsLedger)
  | item (i : ItemId) (row : RewardItem)
  | redemption (r : RedemptionId) (row : RewardRedemption)
  | reservation (r : RedemptionId) (row : PointReservation)
  | grantReview (u : UserId)
  | revokeReview (u : UserId)

def Write.apply : Write → PointsDb → PointsDb
  | .role u r, db => { db with roles := db.roles.put u r }
  | .wallet u w, db => { db with wallets := db.wallets.put u w }
  | .entry e, db => { db with ledger := db.ledger.put e.triple e }
  | .item i row, db => { db with items := db.items.put i row }
  | .redemption r row, db => { db with redemptions := db.redemptions.put r row }
  | .reservation r row, db => { db with reservations := db.reservations.put r row }
  | .grantReview u, db => { db with reviewGrants := db.reviewGrants.put u () }
  | .revokeReview u, db => { db with reviewGrants := db.reviewGrants.remove u }

def Write.row : Write → LockKey
  | .role u _ => .role u
  | .wallet u _ => .wallet u
  | .entry e => .entry e.triple
  | .item i _ => .item i
  | .redemption r _ => .redemption r
  | .reservation r _ => .reservation r
  | .grantReview u => .reviewGrant u
  | .revokeReview u => .reviewGrant u

/-- The unique keys whose insert can be violated: source triples and row ids. -/
def LockKey.taken : LockKey → PointsDb → Bool
  | .entry t, db => (db.ledger.get t).isSome
  | .item i, db => (db.items.get i).isSome
  | .redemption r, db => (db.redemptions.get r).isSome
  | .reservation r, db => (db.reservations.get r).isSome
  | .role _, _ => false
  | .wallet _, _ => false
  | .reviewGrant _, _ => false

abbrev statements : Interface PointsDb LockKey where
  Query := Query
  Answer := Query.Answer
  answer := Query.answer
  Write := Write
  apply := Write.apply
  row := Write.row
  taken k db := k.taken db = true
  decTaken _ _ := inferInstance

/-- What the locks in `L` protect: another commit leaves their rows alone, adds no
occupying redemption under an item or wallet lock, and moves no frozen points under a
wallet lock. Ledger rows and row ids only ever get more. -/
structure Agree (L : LockKey → Prop) (db db' : PointsDb) : Prop where
  wallet : ∀ u, L (.wallet u) → db'.wallets.get u = db.wallets.get u
  item : ∀ i, L (.item i) → db'.items.get i = db.items.get i
  redemption : ∀ r, L (.redemption r) → db'.redemptions.get r = db.redemptions.get r
  reservation : ∀ r, L (.reservation r) → db'.reservations.get r = db.reservations.get r
  entry : ∀ t, L (.entry t) → db'.ledger.get t = db.ledger.get t
  entry_mono : ∀ t e, db.ledger.get t = some e → db'.ledger.get t = some e
  item_mono : ∀ i, (db.items.get i).isSome → (db'.items.get i).isSome
  redemption_mono : ∀ r, (db.redemptions.get r).isSome → (db'.redemptions.get r).isSome
  reservation_mono : ∀ r, (db.reservations.get r).isSome → (db'.reservations.get r).isSome
  occupying : ∀ r row, db'.redemptions.get r = some row → row.status.occupying = true →
    L (.item row.rewardItemId) ∨ L (.wallet row.userId) → ∃ row₀,
      db.redemptions.get r = some row₀ ∧
        row₀.occupiesTerm row.userId row.rewardItemId row.termKey
  frozen : ∀ u, L (.wallet u) → ∀ r, (db'.reservations.get r).elim 0 (·.frozenFor u) =
    (db.reservations.get r).elim 0 (·.frozenFor u)

/-- What an answer still says while the locks in `L` are held. A ledger row that was seen
before is found. -/
def Query.Retained (L K : LockKey → Prop) : (q : Query) → PointsDb → q.Answer → Prop
  | .wallet u, db, a => L (.wallet u) → db.wallets.get u = a
  | .item i, db, a => L (.item i) → db.items.get i = a
  | .redemption r, db, a => L (.redemption r) → db.redemptions.get r = a
  | .reservation r, db, a => L (.reservation r) → db.reservations.get r = a
  | .entry t, db, a => (∀ e, a = some e → db.ledger.get t = some e) ∧ (K (.entry t) → a ≠ none)
  | .occupancy i, db, a => L (.item i) → db.occupancy i ≤ a
  | .termUsage u i term, db, a => L (.wallet u) → db.termUsage u i term ≤ a
  | .frozen u, db, a => L (.wallet u) → db.frozen u = a
  | .role _, _, _ => True
  | .reviewGrant _, _, _ => True

/-- The locks that guard a write beyond the lock of its own row: a redemption that begins
to occupy needs the item and the wallet, a reservation the wallets it freezes. A ledger
row is never overwritten. -/
def Write.Guarded (L : LockKey → Prop) (db : PointsDb) : Write → Prop
  | .entry e => db.ledger.get e.triple = none
  | .redemption r row => row.status.occupying = true →
      (L (.item row.rewardItemId) ∧ L (.wallet row.userId)) ∨ ∃ row₀,
        db.redemptions.get r = some row₀ ∧
          row₀.occupiesTerm row.userId row.rewardItemId row.termKey
  | .reservation r row => L (.wallet row.userId) ∧ ∀ row₀,
      db.reservations.get r = some row₀ → L (.wallet row₀.userId)
  | _ => True

def Covered (p : Pending statements) (db : PointsDb) : Prop :=
  ∀ w ∈ p.writes, Write.Guarded (fun k => k ∈ p.locks) db w

theorem agree_mono {L L' : LockKey → Prop} {db db' : PointsDb} (hL : ∀ k, L k → L' k)
    (h : Agree L' db db') : Agree L db db' where
  wallet u hu := h.wallet u (hL _ hu)
  item i hi := h.item i (hL _ hi)
  redemption r hr := h.redemption r (hL _ hr)
  reservation r hr := h.reservation r (hL _ hr)
  entry t ht := h.entry t (hL _ ht)
  entry_mono := h.entry_mono
  item_mono := h.item_mono
  redemption_mono := h.redemption_mono
  reservation_mono := h.reservation_mono
  occupying r row hrow hocc hlock :=
    h.occupying r row hrow hocc (hlock.imp (hL _) (hL _))
  frozen u hu := h.frozen u (hL _ hu)

/-- The same write on both sides keeps what the locks protect. -/
theorem agree_apply {L : LockKey → Prop} {db db' : PointsDb} (w : Write) (h : Agree L db db') :
    Agree L (w.apply db) (w.apply db') := by
  cases w with
  | role u r => exact { h with }
  | grantReview u => exact { h with }
  | revokeReview u => exact { h with }
  | wallet u row => exact { h with wallet := fun v hv => Table.get_put_congr u row (h.wallet v hv) }
  | item i row =>
    exact { h with
      item := fun j hj => Table.get_put_congr i row (h.item j hj)
      item_mono := fun j => Table.isSome_put_mono i row (h.item_mono j) }
  | entry e =>
    refine { h with
      entry := fun t ht => Table.get_put_congr e.triple e (h.entry t ht)
      entry_mono := ?_ }
    intro t e' hget
    rcases Table.get_put_eq_some hget with ⟨rfl, rfl⟩ | ⟨hne, hold⟩
    · exact Table.get_put_self _ _ _
    · change (db'.ledger.put e.triple e).get t = some e'
      rw [Table.get_put_of_ne _ _ hne]
      exact h.entry_mono t e' hold
  | redemption r row =>
    refine { h with
      redemption := fun r' hr => Table.get_put_congr r row (h.redemption r' hr)
      redemption_mono := fun r' => Table.isSome_put_mono r row (h.redemption_mono r')
      occupying := ?_ }
    intro r' row' hget hocc hlock
    rcases Table.get_put_eq_some hget with ⟨rfl, rfl⟩ | ⟨hne, hold⟩
    · exact ⟨row', Table.get_put_self _ _ _, rfl, rfl, rfl, hocc⟩
    · obtain ⟨row₀, hrow₀, hocc₀⟩ := h.occupying r' row' hold hocc hlock
      refine ⟨row₀, ?_, hocc₀⟩
      change (db.redemptions.put r row).get r' = some row₀
      rw [Table.get_put_of_ne _ _ hne]
      exact hrow₀
  | reservation r row =>
    refine { h with
      reservation := fun r' hr => Table.get_put_congr r row (h.reservation r' hr)
      reservation_mono := fun r' => Table.isSome_put_mono r row (h.reservation_mono r')
      frozen := ?_ }
    intro u hu r'
    change ((db'.reservations.put r row).get r').elim 0 _ =
      ((db.reservations.put r row).get r').elim 0 _
    rw [Table.get_put, Table.get_put]
    by_cases hr : r' = r
    · rw [if_pos hr, if_pos hr]
    · rw [if_neg hr, if_neg hr]
      exact h.frozen u hu r'

theorem view_wallet (p : Pending statements) (db : PointsDb) (u : UserId) :
    (p.view db).wallets.get u = db.wallets.get u ∨ ∃ row, Write.wallet u row ∈ p.writes := by
  have hview := Pending.view_get (fun db => db.wallets.get u) (Write.wallet u) (.wallet u)
    ?_ p db
  · rcases hview with h | ⟨row, hmem, _, _⟩
    · exact Or.inl h
    · exact Or.inr ⟨row, hmem⟩
  · intro w db
    cases w with
    | wallet v row =>
      rcases Table.get_put_cases db.wallets v u row with h | ⟨rfl, h⟩
      · exact Or.inl h
      · exact Or.inr ⟨row, rfl, rfl, h⟩
    | _ => exact Or.inl rfl

theorem view_item (p : Pending statements) (db : PointsDb) (i : ItemId) :
    (p.view db).items.get i = db.items.get i ∨
      ∃ row, Write.item i row ∈ p.writes ∧ (p.view db).items.get i = some row := by
  have hview := Pending.view_get (fun db => db.items.get i) (Write.item i) (.item i)
    ?_ p db
  · rcases hview with h | ⟨row, hmem, _, hrow⟩
    · exact Or.inl h
    · exact Or.inr ⟨row, hmem, hrow⟩
  · intro w db
    cases w with
    | item j row =>
      rcases Table.get_put_cases db.items j i row with h | ⟨rfl, h⟩
      · exact Or.inl h
      · exact Or.inr ⟨row, rfl, rfl, h⟩
    | _ => exact Or.inl rfl

theorem view_entry (p : Pending statements) (db : PointsDb) (t : LedgerId) :
    (p.view db).ledger.get t = db.ledger.get t ∨
      ∃ e, Write.entry e ∈ p.writes ∧ e.triple = t ∧ (p.view db).ledger.get t = some e := by
  have hview := Pending.view_get (fun db => db.ledger.get t) Write.entry (.entry t)
    ?_ p db
  · rcases hview with h | ⟨e, hmem, hkey, hrow⟩
    · exact Or.inl h
    · exact Or.inr ⟨e, hmem, LockKey.entry.inj hkey, hrow⟩
  · intro w db
    cases w with
    | entry e =>
      rcases Table.get_put_cases db.ledger e.triple t e with h | ⟨rfl, h⟩
      · exact Or.inl h
      · exact Or.inr ⟨e, rfl, rfl, h⟩
    | _ => exact Or.inl rfl

theorem view_redemption (p : Pending statements) (db : PointsDb) (r : RedemptionId) :
    (p.view db).redemptions.get r = db.redemptions.get r ∨
      ∃ row, Write.redemption r row ∈ p.writes ∧ (p.view db).redemptions.get r = some row := by
  have hview := Pending.view_get (fun db => db.redemptions.get r) (Write.redemption r) (.redemption r)
    ?_ p db
  · rcases hview with h | ⟨row, hmem, _, hrow⟩
    · exact Or.inl h
    · exact Or.inr ⟨row, hmem, hrow⟩
  · intro w db
    cases w with
    | redemption r' row =>
      rcases Table.get_put_cases db.redemptions r' r row with h | ⟨rfl, h⟩
      · exact Or.inl h
      · exact Or.inr ⟨row, rfl, rfl, h⟩
    | _ => exact Or.inl rfl

theorem view_reservation (p : Pending statements) (db : PointsDb) (r : RedemptionId) :
    (p.view db).reservations.get r = db.reservations.get r ∨
      ∃ row, Write.reservation r row ∈ p.writes ∧
        (p.view db).reservations.get r = some row := by
  have hview := Pending.view_get (fun db => db.reservations.get r) (Write.reservation r) (.reservation r)
    ?_ p db
  · rcases hview with h | ⟨row, hmem, _, hrow⟩
    · exact Or.inl h
    · exact Or.inr ⟨row, hmem, hrow⟩
  · intro w db
    cases w with
    | reservation r' row =>
      rcases Table.get_put_cases db.reservations r' r row with h | ⟨rfl, h⟩
      · exact Or.inl h
      · exact Or.inr ⟨row, rfl, rfl, h⟩
    | _ => exact Or.inl rfl

/-- A commit under the guarding locks leaves alone what every other lock protects. -/
theorem agree_commit {db : PointsDb} (p : Pending statements) (hcovered : Covered p db)
    (hrows : ∀ w ∈ p.writes, Write.row w ∈ p.locks) :
    Agree (fun k => k ∉ p.locks) db (p.view db) where
  wallet u hu := by
    rcases view_wallet p db u with h | ⟨row, hmem⟩
    · exact h
    · exact absurd (hrows _ hmem) hu
  item i hi := by
    rcases view_item p db i with h | ⟨row, hmem, _⟩
    · exact h
    · exact absurd (hrows _ hmem) hi
  redemption r hr := by
    rcases view_redemption p db r with h | ⟨row, hmem, _⟩
    · exact h
    · exact absurd (hrows _ hmem) hr
  reservation r hr := by
    rcases view_reservation p db r with h | ⟨row, hmem, _⟩
    · exact h
    · exact absurd (hrows _ hmem) hr
  entry t ht := by
    rcases view_entry p db t with h | ⟨e, hmem, rfl, _⟩
    · exact h
    · exact absurd (hrows _ hmem) ht
  entry_mono t e he := by
    rcases view_entry p db t with h | ⟨e', hmem, rfl, _⟩
    · rw [h, he]
    · have hfresh : db.ledger.get e'.triple = none := hcovered _ hmem
      rw [hfresh] at he
      cases he
  item_mono i hi := by
    rcases view_item p db i with h | ⟨row, _, h⟩
    · rw [h]
      exact hi
    · rw [h]
      rfl
  redemption_mono r hr := by
    rcases view_redemption p db r with h | ⟨row, _, h⟩
    · rw [h]
      exact hr
    · rw [h]
      rfl
  reservation_mono r hr := by
    rcases view_reservation p db r with h | ⟨row, _, h⟩
    · rw [h]
      exact hr
    · rw [h]
      rfl
  occupying r row hrow hocc hlock := by
    rcases view_redemption p db r with h | ⟨row', hmem, h⟩
    · rw [h] at hrow
      exact ⟨row, hrow, rfl, rfl, rfl, hocc⟩
    · have heq : row' = row := Option.some.inj (h.symm.trans hrow)
      subst heq
      rcases hcovered _ hmem hocc with ⟨hitem, hwallet⟩ | hold
      · rcases hlock with hi | hu
        · exact absurd hitem hi
        · exact absurd hwallet hu
      · exact hold
  frozen u hu r := by
    rcases view_reservation p db r with h | ⟨row, hmem, h⟩
    · rw [h]
    · obtain ⟨hnew, hold⟩ := hcovered _ hmem
      have hzero : ∀ row' : PointReservation, LockKey.wallet row'.userId ∈ p.locks →
          row'.frozenFor u = 0 := by
        intro row' hlocked
        have hne : row'.userId ≠ u := by
          intro heq
          rw [heq] at hlocked
          exact hu hlocked
        simp [PointReservation.frozenFor, hne]
      rw [h, Option.elim_some, hzero row hnew]
      cases hget : db.reservations.get r with
      | none => rfl
      | some row₀ => rw [Option.elim_some, hzero row₀ (hold row₀ hget)]

theorem retained_answer (L K : LockKey → Prop) (q : Query) (db : PointsDb)
    (hseen : ∀ k, K k → k.taken db = true) : q.Retained L K db (q.answer db) := by
  cases q with
  | role => trivial
  | reviewGrant => trivial
  | entry t =>
    refine ⟨fun e he => he, fun ht => ?_⟩
    exact Option.isSome_iff_ne_none.mp (hseen _ ht)
  | occupancy i => exact fun _ => le_rfl
  | termUsage u i term => exact fun _ => le_rfl
  | _ => exact fun _ => rfl

theorem retained_agree {L K : LockKey → Prop} {db db' : PointsDb} {q : Query} {a : q.Answer}
    (h : Agree L db db') (hret : q.Retained L K db a) : q.Retained L K db' a := by
  cases q with
  | role => trivial
  | reviewGrant => trivial
  | wallet u => exact fun hu => (h.wallet u hu).trans (hret hu)
  | item i => exact fun hi => (h.item i hi).trans (hret hi)
  | redemption r => exact fun hr => (h.redemption r hr).trans (hret hr)
  | reservation r => exact fun hr => (h.reservation r hr).trans (hret hr)
  | entry t => exact ⟨fun e he => h.entry_mono t e (hret.1 e he), hret.2⟩
  | occupancy i =>
    intro hi
    refine le_trans (Table.count_le_of_get _ ?_) (hret hi)
    intro r row hrow hocc
    obtain ⟨rfl, hstatus⟩ := hocc
    obtain ⟨row₀, hrow₀, -, hitem, -, hocc₀⟩ := h.occupying r row hrow hstatus (Or.inl hi)
    exact ⟨row₀, hrow₀, hitem, hocc₀⟩
  | termUsage u i term =>
    intro hu
    refine le_trans (Table.count_le_of_get _ ?_) (hret hu)
    intro r row hrow hocc
    obtain ⟨rfl, rfl, rfl, hstatus⟩ := hocc
    exact h.occupying r row hrow hstatus (Or.inr hu)
  | frozen u =>
    intro hu
    refine Eq.trans (Table.total_congr_get ?_) (hret hu)
    exact h.frozen u hu

/-- No statement deletes a row that has a unique key. -/
theorem taken_apply {k : LockKey} {db : PointsDb} (w : Write) (h : k.taken db = true) :
    k.taken (w.apply db) = true := by
  have hput : ∀ {κ ρ : Type} [DecidableEq κ] (t : Table κ ρ) (k k' : κ) (row : ρ),
      (t.get k').isSome = true → ((t.put k row).get k').isSome = true := by
    intro κ ρ _ t k k' row ht
    rcases Table.get_put_cases t k k' row with hsame | ⟨_, hrow⟩
    · rw [hsame]
      exact ht
    · rw [hrow]
      rfl
  cases w <;> cases k <;> first | exact h | exact hput _ _ _ _ h

def locking : Discipline statements where
  agree := Agree
  retained := Query.Retained
  covered := Covered
  agree_mono := agree_mono
  agree_apply := agree_apply
  agree_commit := agree_commit
  retained_answer := retained_answer
  retained_agree := retained_agree
  taken_apply := taken_apply
  taken_agree {L db db' k} h htaken := by
    cases k with
    | entry t =>
      obtain ⟨e, he⟩ := Option.isSome_iff_exists.mp htaken
      change (db'.ledger.get t).isSome = true
      rw [h.entry_mono t e he]
      rfl
    | item i => exact h.item_mono i htaken
    | redemption r => exact h.redemption_mono r htaken
    | reservation r => exact h.reservation_mono r htaken
    | role => exact htaken
    | wallet => exact htaken
    | reviewGrant => exact htaken
  free_agree {L db db' k} h hk htaken := by
    cases k with
    | entry t =>
      change (db.ledger.get t).isSome = true
      rw [← h.entry t hk]
      exact htaken
    | item i =>
      change (db.items.get i).isSome = true
      rw [← h.item i hk]
      exact htaken
    | redemption r =>
      change (db.redemptions.get r).isSome = true
      rw [← h.redemption r hk]
      exact htaken
    | reservation r =>
      change (db.reservations.get r).isSome = true
      rw [← h.reservation r hk]
      exact htaken
    | role => exact htaken
    | wallet => exact htaken
    | reviewGrant => exact htaken

end CampusQuest.Points
