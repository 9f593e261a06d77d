import CampusQuest.DeliverySystem
import CampusQuest.Epochs

/-!
What one act does to one delivery, and the deliveries with their sends as the abstract
machine of numbered claims: the attempt counter is the number of the last claim, and the
snapshot of a send carries the number of its own.
-/

namespace CampusQuest.Notifications

open Tables Runs System

inductive RowMove (settings : DeliverySettings) (w : World) (a : Act) (id : DeliveryId)
    (d : NotificationDelivery) : NotificationDelivery → Prop
  | same : RowMove settings w a id d d
  | claimed (k : CallId) (now : Instant) (ha : a = .claim k id now)
      (hclaimable : d.Claimable settings now) : RowMove settings w a id d (d.begin now)
  | settled (k : CallId) (current : Bool) (s : Sending) (f : Finalization)
      (ha : a = .finalize k current) (hs : w.sends.get k = some s)
      (hid : s.claim.deliveryId = id) (hf : s.finalization settings = some f)
      (hsending : d.status = .sending) :
      RowMove settings w a id d (d.settle s.now (f.judge current))
  | recovered (now : Instant) (ha : a = .recover now) (hmem : id ∈ stuckSending w.db settings now)
      (hsending : d.status = .sending) :
      RowMove settings w a id d (d.recover now)
  | failed (now : Instant) (reason : Text) (hsending : d.status = .sending) :
      RowMove settings w a id d (d.forceFail now reason)

section Rows

variable {settings : DeliverySettings} {w w' : World} {a : Act} {id : DeliveryId}
  {d d' : NotificationDelivery}

theorem Deed.row_move (h : Deed settings w a w') (hd : w.db.deliveries.get id = some d) :
    ∃ d', w'.db.deliveries.get id = some d' ∧ RowMove settings w a id d d' := by
  cases h with
  | idle | resolved | requested | replied | dropped => exact ⟨d, hd, .same⟩
  | outside _ db hdb =>
    refine ⟨d, ?_, .same⟩
    change db.deliveries.get id = _
    rw [hdb]
    exact hd
  | registered _ i x hnew =>
    exact ⟨d, Table.get_put_of_fresh hnew hd, .same⟩
  | claimed k i now x n u _ hx hclaimable =>
    by_cases hi : id = i
    · subst hi
      rw [hd] at hx
      cases hx
      exact ⟨_, Table.get_put_self .., .claimed k now rfl hclaimable⟩
    · exact ⟨d, (Table.get_put_of_ne _ _ hi).trans hd, .same⟩
  | finalized k current s f hs hf =>
    change ∃ d', (w.written s f current).deliveries.get id = some d' ∧ _
    rcases finalize_cases w.db s.claim.deliveryId s.now f current with hsame | ⟨x, hx, hsending, hput⟩
    · exact ⟨d, by rw [World.written, hsame]; exact hd, .same⟩
    · rw [World.written, hput]
      by_cases hi : id = s.claim.deliveryId
      · subst hi
        rw [hd] at hx
        cases hx
        exact ⟨_, Table.get_put_self .., .settled k current s f rfl hs rfl hf hsending⟩
      · exact ⟨d, (Table.get_put_of_ne _ _ hi).trans hd, .same⟩
  | recovered now =>
    change ∃ d', (recoverStuckSending w.db settings now).deliveries.get id = some d' ∧ _
    rcases recoverStuckSending_get w.db settings now id with hsame | ⟨x, hx, hmem, hget⟩
    · exact ⟨d, hsame.trans hd, .same⟩
    · obtain ⟨y, hy, hstuck⟩ := stuck_of_mem hmem
      rw [hd] at hx hy
      cases hx
      cases hy
      exact ⟨_, hget, .recovered now rfl hmem hstuck.1⟩
  | failed _ i now reason x hx hsending =>
    by_cases hi : id = i
    · subst hi
      rw [hd] at hx
      cases hx
      exact ⟨_, Table.get_put_self .., .failed now reason hsending⟩
    · exact ⟨d, (Table.get_put_of_ne _ _ hi).trans hd, .same⟩

/-- A delivery that appears was just registered. -/
theorem Deed.row_made (h : Deed settings w a w') (hnone : w.db.deliveries.get id = none)
    (hd : w'.db.deliveries.get id = some d') : d'.status = .pending ∧ d'.attempts = 0 := by
  have hput : ∀ {i x}, (w.db.deliveries.put i x).get id = some d' → id = i ∧ d' = x := by
    intro i x hget
    rcases Table.get_put_eq_some hget with hnew | ⟨_, hold⟩
    · exact hnew
    · rw [hnone] at hold
      cases hold
  cases h with
  | idle | resolved | requested | replied | dropped =>
    rw [show w.db.deliveries.get id = some d' from hd] at hnone
    cases hnone
  | outside _ db hdb =>
    change db.deliveries.get id = _ at hd
    rw [hdb, hnone] at hd
    cases hd
  | registered _ i x _ hpending hattempts =>
    obtain ⟨_, rfl⟩ := hput hd
    exact ⟨hpending, hattempts⟩
  | claimed k i now x n u _ hx =>
    obtain ⟨rfl, _⟩ := hput hd
    rw [hnone] at hx
    cases hx
  | finalized k current s f =>
    change (w.written s f current).deliveries.get id = _ at hd
    rcases finalize_cases w.db s.claim.deliveryId s.now f current with hsame | ⟨x, hx, _, hwrite⟩
    · rw [World.written, hsame, hnone] at hd
      cases hd
    · rw [World.written, hwrite] at hd
      obtain ⟨rfl, _⟩ := hput hd
      rw [hnone] at hx
      cases hx
  | recovered now =>
    change (recoverStuckSending w.db settings now).deliveries.get id = _ at hd
    rcases recoverStuckSending_get w.db settings now id with hsame | ⟨x, hx, _⟩
    · rw [hsame, hnone] at hd
      cases hd
    · rw [hnone] at hx
      cases hx
  | failed _ i now reason x hx =>
    obtain ⟨rfl, _⟩ := hput hd
    rw [hnone] at hx
    cases hx

/-- A row that is SENT or FAILED is never written again. -/
theorem RowMove.terminal (h : RowMove settings w a id d d') (hd : d.status.terminal = true) :
    d' = d := by
  have hnot : d.status ≠ .sending := by
    intro hsending
    rw [hsending] at hd
    cases hd
  cases h with
  | same => rfl
  | claimed _ _ _ hclaimable =>
    have hopen := hclaimable.open'
    rw [hd] at hopen
    cases hopen
  | settled _ _ _ _ _ _ _ _ hsending => exact absurd hsending hnot
  | recovered _ _ _ hsending => exact absurd hsending hnot
  | failed _ _ hsending => exact absurd hsending hnot

theorem terminal_run {l : List (World × Act × World)} (hw : (delivery settings).Reach w)
    (hrun : (delivery settings).Run w l w') (hd : w.db.deliveries.get id = some d)
    (hterminal : d.status.terminal = true) : w'.db.deliveries.get id = some d := by
  refine hrun.keeps (P := fun w => w.db.deliveries.get id = some d) ?_ hw hd
  rintro u a u' _ hget rfl
  obtain ⟨d', hd', hmove⟩ := (perform_deed settings u a).row_move hget
  rw [hd', hmove.terminal hterminal]

end Rows

def Sending.holding (s : Sending) : Epochs.Holding DeliveryId :=
  ⟨s.claim.deliveryId, s.claim.attempts, decide (s.phase ≠ .claimed)⟩

def Db.attemptsOf (db : Db) (id : DeliveryId) : ℕ := (db.deliveries.get id).elim 0 (·.attempts)

def World.epochs (w : World) : Epochs.State DeliveryId CallId where
  epoch := w.db.attemptsOf
  holding k := (w.sends.get k).map Sending.holding
  calls := w.requests.map fun r => (r.deliveryId, r.attempt)

/-- No send is under way on a row when it is claimed. -/
def World.Unhurried (w : World) : Act → Prop
  | .claim _ id _ => ∀ k s, w.sends.get k = some s → s.claim.deliveryId ≠ id
  | _ => True

section Numbers

variable {settings : DeliverySettings} {w w' : World} {a : Act}

theorem attemptsOf_eq {db : Db} {id : DeliveryId} {d : NotificationDelivery}
    (h : db.deliveries.get id = some d) : db.attemptsOf id = d.attempts := by
  unfold Db.attemptsOf
  rw [h]
  rfl

theorem attemptsOf_put_self (db : Db) (id : DeliveryId) (d : NotificationDelivery) :
    (db.putDelivery id d).attemptsOf id = d.attempts := by
  unfold Db.attemptsOf Db.putDelivery
  rw [Table.get_put_self]
  rfl

theorem attemptsOf_put_of_ne (db : Db) {id j : DeliveryId} (d : NotificationDelivery)
    (h : j ≠ id) : (db.putDelivery id d).attemptsOf j = db.attemptsOf j := by
  unfold Db.attemptsOf Db.putDelivery
  rw [Table.get_put_of_ne _ _ h]

/-- A write that keeps a row's counter keeps all counters. -/
theorem attemptsOf_put (db : Db) (id : DeliveryId) (d : NotificationDelivery)
    (h : d.attempts = db.attemptsOf id) : (db.putDelivery id d).attemptsOf = db.attemptsOf := by
  funext j
  by_cases hj : j = id
  · subst hj
    exact (attemptsOf_put_self db j d).trans h
  · exact attemptsOf_put_of_ne db d hj

theorem attemptsOf_written (w : World) (s : Sending) (f : Finalization) (current : Bool) :
    (w.written s f current).attemptsOf = w.db.attemptsOf := by
  rcases finalize_cases w.db s.claim.deliveryId s.now f current with hsame | ⟨d, hd, _, hput⟩
  · rw [World.written, hsame]
  · have hkeep := attemptsOf_put w.db s.claim.deliveryId (d.settle s.now (f.judge current))
      (attemptsOf_eq hd).symm
    rw [← hkeep]
    unfold Db.attemptsOf World.written
    rw [hput]
    rfl

theorem attemptsOf_recover (db : Db) (settings : DeliverySettings) (now : Instant) :
    (recoverStuckSending db settings now).attemptsOf = db.attemptsOf := by
  funext id
  unfold Db.attemptsOf
  rcases recoverStuckSending_get db settings now id with hsame | ⟨d, hd, _, hget⟩
  · rw [hsame]
  · rw [hget, hd]
    rfl

theorem epochs_setDb {db : Db} (h : db.attemptsOf = w.db.attemptsOf) :
    (w.setDb db).epochs = w.epochs :=
  Epochs.State.ext h rfl rfl

theorem holding_setSend (w : World) (k : CallId) (s : Sending) :
    (fun j => ((w.setSend k s).sends.get j).map Sending.holding) =
      Function.update (fun j => (w.sends.get j).map Sending.holding) k (some s.holding) := by
  funext j
  change ((w.sends.put k s).get j).map _ = _
  rw [Table.get_put]
  by_cases hj : j = k
  · rw [if_pos hj, hj, Function.update_self]
    rfl
  · rw [if_neg hj, Function.update_of_ne hj]

theorem holding_dropSend (w : World) (k : CallId) :
    (fun j => ((w.dropSend k).sends.get j).map Sending.holding) =
      Function.update (fun j => (w.sends.get j).map Sending.holding) k none := by
  funext j
  change ((w.sends.remove k).get j).map _ = _
  rw [Table.get_remove]
  by_cases hj : j = k
  · rw [if_pos hj, hj, Function.update_self]
    rfl
  · rw [if_neg hj, Function.update_of_ne hj]

/-- A send that goes on holds the same number and may not call again. -/
theorem holding_proceed {s : Sending} {p : Phase} (hp : p ≠ .claimed) :
    ({ s with phase := p } : Sending).holding = { s.holding with called := true } := by
  unfold Sending.holding
  simp [hp]

theorem epochs_proceed {k : CallId} {s : Sending} {p : Phase} (hp : p ≠ .claimed) :
    (w.setSend k { s with phase := p }).epochs =
      w.epochs.setHolding k (some { s.holding with called := true }) := by
  apply Epochs.State.ext
  · rfl
  · change (fun j => ((w.setSend k { s with phase := p }).sends.get j).map Sending.holding) = _
    rw [holding_setSend, holding_proceed hp]
    rfl
  · rfl

theorem epochs_drop (w : World) (k : CallId) :
    (w.dropSend k).epochs = w.epochs.setHolding k none := by
  apply Epochs.State.ext
  · rfl
  · exact holding_dropSend w k
  · rfl

theorem epochs_holding {k : CallId} {s : Sending} (hs : w.sends.get k = some s) :
    w.epochs.holding k = some s.holding := by
  change (w.sends.get k).map _ = _
  rw [hs]
  rfl

/-- A claim takes the next number of its row. -/
theorem epochs_claimed {k : CallId} {id : DeliveryId} {now : Instant} {d : NotificationDelivery}
    {n : Notification} {u : User} (hd : w.db.deliveries.get id = some d) :
    ((w.setDb (w.db.putDelivery id (d.begin now))).setSend k
      ⟨(d.begin now).snapshot id n u, now, .claimed⟩).epochs = w.epochs.claim k id := by
  have hnumber : w.db.attemptsOf id = d.attempts := attemptsOf_eq hd
  apply Epochs.State.ext
  · funext j
    change (w.db.putDelivery id (d.begin now)).attemptsOf j =
      Function.update w.db.attemptsOf id (w.db.attemptsOf id + 1) j
    by_cases hj : j = id
    · subst hj
      rw [Function.update_self, hnumber]
      exact attemptsOf_put_self ..
    · rw [Function.update_of_ne hj]
      exact attemptsOf_put_of_ne _ _ hj
  · have hholding : Sending.holding ⟨(d.begin now).snapshot id n u, now, .claimed⟩ =
        ⟨id, w.db.attemptsOf id + 1, false⟩ := by
      rw [hnumber]
      rfl
    refine (holding_setSend (w.setDb (w.db.putDelivery id (d.begin now))) k _).trans ?_
    rw [hholding]
    rfl
  · rfl

/-- Every act is a step of the machine of numbered claims or leaves it unchanged. -/
theorem deed_epochs (h : Deed settings w a w') : w'.epochs = w.epochs ∨
    ∃ e, Epochs.Step w.epochs e w'.epochs ∧ (w.Unhurried a → Epochs.Vacant w.epochs e) := by
  cases h with
  | idle => exact Or.inl rfl
  | outside _ db hdb =>
    refine Or.inl (epochs_setDb ?_)
    unfold Db.attemptsOf
    rw [hdb]
  | registered _ id d hnew _ hattempts =>
    refine Or.inl (epochs_setDb (attemptsOf_put w.db id d ?_))
    rw [hattempts, Db.attemptsOf, hnew]
    rfl
  | claimed k id now d n u hidle hd _ =>
    have hheld : w.epochs.holding k = none := by
      change (w.sends.get k).map _ = none
      rw [hidle]
      rfl
    refine Or.inr ⟨.claim k id, ?_, fun hquiet v h hget => ?_⟩
    · rw [epochs_claimed hd]
      exact .claim k id hheld
    · obtain ⟨s, hs, rfl⟩ := Option.map_eq_some_iff.mp hget
      exact hquiet v s hs
  | resolved _ k s f hs hphase =>
    refine Or.inr ⟨.pass k, ?_, fun _ => trivial⟩
    rw [epochs_proceed (by simp)]
    exact .pass k s.holding (epochs_holding hs)
  | requested _ k s r hs hphase =>
    have hcalled : s.holding.called = false := by simp [Sending.holding, hphase]
    have hnext : ((w.setSend k { s with phase := .calling }).log
        ⟨s.claim.deliveryId, s.claim.attempts, r⟩).epochs =
        { w.epochs.setHolding k (some { s.holding with called := true }) with
          calls := w.epochs.calls ++ [(s.holding.row, s.holding.epoch)] } := by
      rw [← epochs_proceed (s := s) (p := .calling) (by simp)]
      apply Epochs.State.ext
      · rfl
      · rfl
      · change List.map _ (w.requests ++ [_]) = _
        rw [List.map_append]
        rfl
    refine Or.inr ⟨.call k, ?_, fun _ => trivial⟩
    rw [hnext]
    exact .call k s.holding (epochs_holding hs) hcalled
  | replied _ k s r hs _ =>
    refine Or.inr ⟨.pass k, ?_, fun _ => trivial⟩
    rw [epochs_proceed (by simp)]
    exact .pass k s.holding (epochs_holding hs)
  | finalized k current s f =>
    refine Or.inr ⟨.drop k, ?_, fun _ => trivial⟩
    rw [epochs_drop, epochs_setDb (attemptsOf_written w s f current)]
    exact .drop k
  | dropped _ k =>
    refine Or.inr ⟨.drop k, ?_, fun _ => trivial⟩
    rw [epochs_drop]
    exact .drop k
  | recovered now => exact Or.inl (epochs_setDb (attemptsOf_recover w.db settings now))
  | failed _ id now reason d hd =>
    exact Or.inl (epochs_setDb (attemptsOf_put w.db id _ (attemptsOf_eq hd).symm))

theorem refines_epochs (settings : DeliverySettings) :
    Refines (delivery settings) (Epochs.machine DeliveryId CallId) World.epochs := by
  constructor
  · intro w hw
    constructor
    · intro k
      change (w.sends.get k).map _ = none
      rw [hw.sends, Table.get_empty]
      rfl
    · change w.requests.map _ = []
      rw [hw.requests]
      rfl
  · rintro w a _ _ _ rfl
    rcases deed_epochs (perform_deed settings w a) with hsame | ⟨e, hstep, _⟩
    · exact Or.inl hsame
    · exact Or.inr ⟨e, hstep⟩

theorem epochs_sound (hw : (delivery settings).Reach w) : Epochs.Sound w.epochs :=
  (refines_epochs settings).invariant Epochs.sound_inductive hw

end Numbers

end CampusQuest.Notifications
