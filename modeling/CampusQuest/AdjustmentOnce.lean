import CampusQuest.PointService

/-!
Adjustments are idempotent by their operation id. The id is the source id of the entry, so
the source triple admits one adjustment for it; every later call with the id is answered
from that entry, whether it finds the entry at once or loses the race to insert it.
-/

namespace CampusQuest.Points

open Tables Transactions Locking Runs

/-- The call asks for what the entry records: the same user, amount and stripped reason, a
balance effect and no ranking effect. -/
structure SameIntent (e : PointsLedger) (user : UserId) (amount : ℤ) (reason : Option Text) :
    Prop where
  user : e.userId = user
  amount : e.amount = amount
  reason : e.reason = some (strippedReason reason)
  balance : e.affectsBalance = true
  ranking : e.affectsRanking = false

inductive AdjustmentRefused (actor : Actor) (user : UserId) (amount : ℤ) (reason : Option Text) :
    PointsError → Prop
  | permission (h : isAdmin actor.role = false) :
      AdjustmentRefused actor user amount reason .adminPermissionDenied
  | reason (h : strippedReason reason = []) :
      AdjustmentRefused actor user amount reason .adminReasonRequired
  | amount (h : amount = 0) : AdjustmentRefused actor user amount reason
      (.invalidLedgerEntry .amount "积分流水金额必须是非零整数")
  | target : AdjustmentRefused actor user amount reason (.adjustmentTargetNotFound user)

/-- How a call with the operation id ends. The loser of a race has taken the wallet lock of
the user it names before it reads the winner back, and that may have opened the wallet. -/
inductive AdjustmentEnds (db db' : PointsDb) (actor : Actor) (user : UserId) (amount : ℤ)
    (reason : Option Text) (operation : OperationId) : Except PointsError Receipt → Prop
  | posted (hreason : strip (strippedReason reason) ≠ []) (hamount : amount ≠ 0)
      (hfree : db.ledger.get (adjustmentId operation) = none)
      (hstore : db' = db.post (adjustmentRow user amount operation actor.userId
        (strippedReason reason) hreason hamount)) :
      AdjustmentEnds db db' actor user amount reason operation
        (.ok (.adjustment (.ok (adjustmentRow user amount operation actor.userId
          (strippedReason reason) hreason hamount))))
  | replayed (existing : PointsLedger)
      (hexisting : db.ledger.get (adjustmentId operation) = some existing)
      (hsame : SameIntent existing user amount reason) (hstore : db' = db) :
      AdjustmentEnds db db' actor user amount reason operation (.ok (.adjustment (.ok existing)))
  | conflict (existing : PointsLedger)
      (hexisting : db.ledger.get (adjustmentId operation) = some existing)
      (hother : ¬ SameIntent existing user amount reason) (hstore : db' = db) :
      AdjustmentEnds db db' actor user amount reason operation
        (.error (.adjustmentOperationConflict operation))
  | outraced (existing : PointsLedger)
      (hexisting : db.ledger.get (adjustmentId operation) = some existing)
      (hother : ¬ SameIntent existing user amount reason)
      (hstore : db' = db ∨ existing.userId ≠ user ∧ db' = db.openWallet user) :
      AdjustmentEnds db db' actor user amount reason operation
        (.ok (.adjustment (.error (.adjustmentOperationConflict operation))))
  | refused (e : PointsError) (h : AdjustmentRefused actor user amount reason e)
      (hstore : db' = db) :
      AdjustmentEnds db db' actor user amount reason operation (.error e)

/-- Every adjustment entry is the row of an adjustment of its operation, and a user with a
balance-affecting entry has a wallet. -/
structure Adjusted (db : PointsDb) : Prop where
  row : ∀ operation e, db.ledger.get (adjustmentId operation) = some e →
    ∃ (user : UserId) (amount : ℤ) (operator : UserId) (reason : Text)
      (hreason : strip reason ≠ []) (hamount : amount ≠ 0),
      e = adjustmentRow user amount operation operator reason hreason hamount
  funded : ∀ t e, db.ledger.get t = some e → e.touchesWallet → db.wallets.get e.userId ≠ none

namespace Adjusted

variable {db db' : PointsDb}

theorem initial (h : Initial db) : Adjusted db := by
  obtain ⟨_, hledger, _, _⟩ := h
  constructor
  · intro operation e he
    rw [hledger, Table.get_empty] at he
    cases he
  · intro t e he
    rw [hledger, Table.get_empty] at he
    cases he

theorem congr (h : Adjusted db) (hledger : db'.ledger = db.ledger)
    (hwallets : ∀ u, db.wallets.get u ≠ none → db'.wallets.get u ≠ none) : Adjusted db' := by
  constructor
  · rw [hledger]
    exact h.row
  · intro t e he htouch
    rw [hledger] at he
    exact hwallets e.userId (h.funded t e he htouch)

theorem openWallet_opens (db : PointsDb) (u : UserId) :
    ∀ v, db.wallets.get v ≠ none → (db.openWallet u).wallets.get v ≠ none := by
  intro v hv
  unfold PointsDb.openWallet
  split
  · exact hv
  · change (db.wallets.put u .zero).get v ≠ none
    rw [Table.get_put]
    by_cases huv : v = u
    · rw [if_pos huv]
      exact Option.some_ne_none _
    · rw [if_neg huv]
      exact hv

theorem openWallet (h : Adjusted db) (u : UserId) : Adjusted (db.openWallet u) :=
  h.congr (PointsDb.openWallet_ledger db u) (openWallet_opens db u)

/-- A posting gives its user a wallet; an adjustment has to be the row of one. -/
theorem post (h : Adjusted db) (e : PointsLedger)
    (hrow : ∀ operation, e.triple = adjustmentId operation →
      ∃ (user : UserId) (amount : ℤ) (operator : UserId) (reason : Text)
        (hreason : strip reason ≠ []) (hamount : amount ≠ 0),
        e = adjustmentRow user amount operation operator reason hreason hamount) :
    Adjusted (db.post e) := by
  constructor
  · intro operation e' he'
    rcases Table.get_put_eq_some he' with ⟨htriple, rfl⟩ | ⟨_, hold⟩
    · exact hrow operation htriple.symm
    · exact h.row operation e' hold
  · intro t e' he' htouch
    have hkept : ∀ u, db.wallets.get u ≠ none → (db.post e).wallets.get u ≠ none := by
      intro u hu
      unfold PointsDb.post
      by_cases hwallet : e.touchesWallet
      · rw [if_pos hwallet, Table.get_put]
        by_cases huser : u = e.userId
        · rw [if_pos huser]
          exact Option.some_ne_none _
        · rw [if_neg huser]
          exact hu
      · rw [if_neg hwallet]
        exact hu
    rcases Table.get_put_eq_some he' with ⟨_, rfl⟩ | ⟨_, hold⟩
    · unfold PointsDb.post
      rw [if_pos htouch, Table.get_put_self]
      exact Option.some_ne_none _
    · exact hkept _ (h.funded t e' hold htouch)

theorem change (h : Adjusted db) (hchange : Change db db') : Adjusted db' := by
  cases hchange with
  | same => exact h
  | openWallet u => exact h.openWallet u
  | grant claim user amount effectiveAt hpos hfree =>
    exact h.post _ fun operation htriple => by cases htriple
  | reverse original id operator reason effectiveAt =>
    refine h.post _ fun operation htriple => ?_
    have htype := congrArg SourceTriple.ledgerType htriple
    cases htype
  | adjust user amount operation operator reason hreason hamount hfree =>
    refine h.post _ fun operation' htriple => ?_
    have hid : operation = operation' := congrArg SourceTriple.sourceId htriple
    subst hid
    exact ⟨user, amount, operator, reason, hreason, hamount, rfl⟩
  | request id user => exact (h.openWallet user).congr rfl fun _ hu => hu
  | approve id redemption reservation now actor =>
    have hposted := h.post (redemptionRow id redemption actor) fun operation htriple => by
      have htype := congrArg SourceTriple.ledgerType htriple
      cases htype
    exact hposted.congr rfl fun _ hu => hu
  | reject id redemption => exact (h.openWallet redemption.userId).congr rfl fun _ hu => hu
  | fulfill => exact h.congr rfl fun _ hu => hu
  | item => exact h.congr rfl fun _ hu => hu
  | accounts => exact h.congr rfl fun _ hu => hu

end Adjusted

theorem changes_adjusted : changes.Inductive Adjusted where
  init _ h := Adjusted.initial h
  step _ _ _ h hstep := h.change hstep

/-- No change of the tables takes an entry out of the ledger or touches it. -/
theorem Change.keeps_entry {db db' : PointsDb} {t : LedgerId} {e : PointsLedger}
    (h : Change db db') (he : db.ledger.get t = some e) : db'.ledger.get t = some e := by
  cases h with
  | same => exact he
  | openWallet u =>
    rw [PointsDb.openWallet_ledger]
    exact he
  | grant claim user amount effectiveAt hpos hfree => exact Table.get_put_of_fresh hfree he
  | reverse original id operator reason effectiveAt _ _ _ hfree =>
    exact Table.get_put_of_fresh hfree he
  | adjust user amount operation operator reason hreason hamount hfree =>
    exact Table.get_put_of_fresh hfree he
  | request id user =>
    change (db.openWallet user).ledger.get t = some e
    rw [PointsDb.openWallet_ledger]
    exact he
  | approve id redemption reservation now actor _ _ _ hfree =>
    exact Table.get_put_of_fresh hfree he
  | reject id redemption =>
    change (db.openWallet redemption.userId).ledger.get t = some e
    rw [PointsDb.openWallet_ledger]
    exact he
  | fulfill => exact he
  | item => exact he
  | accounts => exact he

section Answers

variable {db : PointsDb} {p' : Pending statements} {actor : Actor} {user : UserId} {amount : ℤ}
  {reason : Option Text} {operation : OperationId} {existing : PointsLedger}

/-- The comparison of the three fields decides whether the intent is the same. -/
theorem Adjusted.replayed (h : Adjusted db) (user : UserId) (amount : ℤ) (reason : Option Text)
    (hexisting : db.ledger.get (adjustmentId operation) = some existing) :
    (SameIntent existing user amount reason ∧
      replayedAdjustment existing operation user amount (strippedReason reason) = .ok existing) ∨
    (¬ SameIntent existing user amount reason ∧
      replayedAdjustment existing operation user amount (strippedReason reason) =
        .error (.adjustmentOperationConflict operation)) := by
  obtain ⟨user', amount', operator, text, htext, hamount, rfl⟩ := h.row operation existing hexisting
  have hreason : (adjustmentRow user' amount' operation operator text htext hamount).reason =
      some (strip text) := if_neg htext
  unfold replayedAdjustment
  rw [hreason, Option.getD_some]
  by_cases hsame : user' = user ∧ amount' = amount ∧ strip text = strippedReason reason
  · refine Or.inl ⟨⟨hsame.1, hsame.2.1, ?_, rfl, rfl⟩, if_pos hsame⟩
    rw [hreason, hsame.2.2]
  · refine Or.inr ⟨fun hintent => hsame ⟨hintent.user, hintent.amount, ?_⟩, if_neg hsame⟩
    have hboth := hintent.reason
    rw [hreason] at hboth
    exact Option.some.inj hboth

/-- Opening the wallet of the user an adjustment was posted for changes nothing. -/
theorem Adjusted.openWallet_user (h : Adjusted db)
    (hexisting : db.ledger.get (adjustmentId operation) = some existing) :
    db.openWallet existing.userId = db := by
  obtain ⟨_, _, _, _, _, _, rfl⟩ := h.row operation existing hexisting
  have hwallet := h.funded _ _ hexisting (Or.inl rfl)
  unfold PointsDb.openWallet
  split
  · rfl
  next hnone => exact absurd hnone hwallet

/-- An adjustment that ends with an error is refused for itself, or by the entry it finds. -/
theorem adminAdjustPoints_refused {e : PointsError}
    (h : (adminAdjustPoints actor user amount reason operation).Ends locking db .start
      (.error e) p') :
    AdjustmentRefused actor user amount reason e ∨
      ∃ existing, db.ledger.get (adjustmentId operation) = some existing ∧
        replayedAdjustment existing operation user amount (strippedReason reason) = .error e := by
  unfold adminAdjustPoints at h
  dsimp only at h
  split at h
  next hactor =>
    cases (ends_refuse.mp h).1
    exact Or.inl (.permission hactor)
  next =>
  split at h
  next htext =>
    cases (ends_refuse.mp h).1
    exact Or.inl (.reason htext)
  next htext =>
  split at h
  next hzero =>
    cases (ends_refuse.mp h).1
    exact Or.inl (.amount hzero)
  next hamount =>
  have hreason : strip (strippedReason reason) ≠ [] := by
    rw [strip_strippedReason]
    exact htext
  rw [ends_ask] at h
  obtain ⟨a, ⟨hfound, _⟩, h⟩ := h
  cases a with
  | some existing =>
    dsimp only at h
    split at h
    next => cases (ends_pure.mp h).1
    next err herr =>
      cases (ends_refuse.mp h).1
      exact Or.inr ⟨existing, hfound existing rfl, herr⟩
  | none =>
    rw [ends_ask] at h
    obtain ⟨role, _, h⟩ := h
    cases role with
    | none =>
      cases (ends_refuse.mp h).1
      exact Or.inl .target
    | some _ =>
      rcases ends_seq.mp h with ⟨_, p₁, hwallet, h⟩ | ⟨_, hwallet, _⟩
      · obtain ⟨_, hview, _, _, _⟩ := lockedOrCreatedWallet_ends hwallet
        rw [Pending.view_start] at hview
        have hledger : (p₁.view db).ledger = db.ledger := by
          rw [hview, PointsDb.openWallet_ledger]
        rcases Txn.ends_nested h with ⟨p₂, hbody, _⟩ | ⟨htaken, hhandler⟩
        · rcases ends_seq.mp hbody with ⟨_, _, _, hdone⟩ | ⟨err, hpost, _⟩
          · cases (ends_pure.mp hdone).1
          · have hvalid := validate_adjustmentCommand user operation actor.userId hreason hamount
            rcases postEntry_ends hpost with ⟨_, hinvalid, _⟩ |
              ⟨_, ⟨hviolated, hopen, _⟩ | ⟨_, hposted, _⟩⟩
            · rw [hvalid] at hinvalid
              cases hinvalid
            · rw [Pending.view_enter, hledger] at hviolated
              exact absurd (hopen rfl) hviolated
            · cases hposted
        · -- The row that made the insert fail is committed, so the handler finds it.
          rw [ends_ask] at hhandler
          obtain ⟨b, ⟨_, hwinner⟩, hhandler⟩ := hhandler
          cases b with
          | none => exact absurd rfl (hwinner List.mem_cons_self)
          | some winner => cases (ends_pure.mp hhandler).1
      · cases (lockedOrCreatedWallet_ends hwallet).1

theorem adjust_ends {db' : PointsDb} {r : Except PointsError Receipt} (hdb : Adjusted db)
    (h : (program (.adjust actor user amount reason operation)).Ends locking db .start r p')
    (hstore : (∃ a, r = .ok a ∧ db' = p'.view db) ∨ (∃ e, r = .error e ∧ db' = db)) :
    AdjustmentEnds db db' actor user amount reason operation r := by
  rcases ends_seq.mp h with ⟨answer, p₁, hadjust, hrest⟩ | ⟨err, hadjust, rfl⟩
  · obtain ⟨rfl, rfl⟩ := ends_pure.mp hrest
    rcases hstore with ⟨_, _, rfl⟩ | ⟨_, hr, _⟩
    · rcases adminAdjustPoints_ends hadjust with
        ⟨⟨existing, hexisting, hanswer⟩, hview, _⟩ | ⟨hreason, hamount, hfree, rfl, hview, _⟩
      · rcases hdb.replayed user amount reason hexisting with
          ⟨hsame, hreplay⟩ | ⟨hother, hreplay⟩
        · rw [hanswer, hreplay]
          refine .replayed existing hexisting hsame ?_
          rcases hview with hview | hview
          · exact hview
          · rw [hview, ← hsame.user, hdb.openWallet_user hexisting]
        · rw [hanswer, hreplay]
          refine .outraced existing hexisting hother ?_
          rcases hview with hview | hview
          · exact Or.inl hview
          · by_cases huser : existing.userId = user
            · rw [hview, ← huser, hdb.openWallet_user hexisting]
              exact Or.inl rfl
            · exact Or.inr ⟨huser, hview⟩
      · exact .posted hreason hamount hfree hview
    · cases hr
  · rcases hstore with ⟨_, hr, _⟩ | ⟨_, _, rfl⟩
    · cases hr
    · rcases adminAdjustPoints_refused hadjust with hrefused | ⟨existing, hexisting, hanswer⟩
      · exact .refused err hrefused rfl
      · rcases hdb.replayed user amount reason hexisting with
          ⟨_, hreplay⟩ | ⟨hother, hreplay⟩
        · rw [hreplay] at hanswer
          cases hanswer
        · rw [hreplay] at hanswer
          cases hanswer
          exact .conflict existing hexisting hother rfl

end Answers

section Replays

variable {actor : Actor} {user : UserId} {amount : ℤ} {reason : Option Text}
  {operation : OperationId} {existing : PointsLedger}

def replayAnswer (existing : PointsLedger) (actor : Actor) (user : UserId) (amount : ℤ)
    (reason : Option Text) (operation : OperationId) : Except PointsError Receipt :=
  if isAdmin actor.role = false then .error .adminPermissionDenied
  else if strippedReason reason = [] then .error .adminReasonRequired
  else if amount = 0 then
    .error (.invalidLedgerEntry .amount "积分流水金额必须是非零整数")
  else match replayedAdjustment existing operation user amount (strippedReason reason) with
    | .ok e => .ok (.adjustment (.ok e))
    | .error e => .error e

/-- The program gives the answer, at once or after it has looked the entry up. -/
def Decides (operation : OperationId) (existing : PointsLedger) (r : Except PointsError Receipt) :
    PointsTxn Receipt → Prop
  | .done a => r = .ok a
  | .raise e => r = .error e
  | .ask (.entry t) next => t = adjustmentId operation ∧
      ((∃ a, next (some existing) = .done a ∧ r = .ok a) ∨
        ∃ e, next (some existing) = .raise e ∧ r = .error e)
  | _ => False

theorem program_adjust_decides (existing : PointsLedger) (actor : Actor) (user : UserId)
    (amount : ℤ) (reason : Option Text) (operation : OperationId) :
    Decides operation existing (replayAnswer existing actor user amount reason operation)
      (program (.adjust actor user amount reason operation)) := by
  unfold replayAnswer program adminAdjustPoints
  dsimp only
  by_cases hactor : isAdmin actor.role = false
  · rw [if_pos hactor, if_pos hactor]
    rfl
  rw [if_neg hactor, if_neg hactor]
  by_cases htext : strippedReason reason = []
  · rw [if_pos htext, if_pos htext]
    rfl
  rw [if_neg htext, if_neg htext]
  by_cases hamount : amount = 0
  · rw [if_pos hamount, if_pos hamount]
    rfl
  rw [if_neg hamount, if_neg hamount]
  refine ⟨rfl, ?_⟩
  cases hanswer : replayedAdjustment existing operation user amount (strippedReason reason) with
  | ok e =>
    refine Or.inl ⟨_, ?_, rfl⟩
    dsimp only [bind, Txn.bind, pure]
    rw [hanswer]
    rfl
  | error e =>
    refine Or.inr ⟨_, ?_, rfl⟩
    dsimp only [bind, Txn.bind, pure]
    rw [hanswer]
    rfl

/-- Every call for the operation that the session is running began with the entry there. -/
def Replays (operation : OperationId) (existing : PointsLedger) :
    Session statements Call PointsError Receipt → Prop
  | .running (.adjust actor user amount reason operation') _ t p => operation' = operation →
      p = .start ∧
        Decides operation existing (replayAnswer existing actor user amount reason operation) t
  | _ => True

theorem Replays.of_stuck {call : Call} {v : Option (Savepoint statements PointsError Receipt)}
    {t : PointsTxn Receipt} {p : Pending statements}
    (h : Replays operation existing (.running call v t p))
    (hstuck : ∀ r, ¬ Decides operation existing r t)
    (v' : Option (Savepoint statements PointsError Receipt)) (t' : PointsTxn Receipt)
    (p' : Pending statements) : Replays operation existing (.running call v' t' p') := by
  cases call with
  | adjust actor user amount reason operation' =>
    exact fun hoperation => absurd (h hoperation).2 (hstuck _)
  | _ => trivial

/-- While the entry is there, a session stays on the way to its answer. -/
theorem Replays.statement {db : PointsDb}
    {m m' : Session statements Call PointsError Receipt}
    (hexisting : db.ledger.get (adjustmentId operation) = some existing)
    (h : Replays operation existing m) (hs : service.Statement db m m') :
    Replays operation existing m' := by
  cases hs with
  | begin m call =>
    cases call with
    | adjust actor user amount reason operation' =>
      rintro rfl
      exact ⟨rfl, program_adjust_decides existing actor user amount reason operation'⟩
    | _ => trivial
  | crash => trivial
  | violated => trivial
  | raise => trivial
  | ask call v q next p =>
    cases call with
    | adjust actor user amount reason operation' =>
      intro hoperation
      obtain ⟨rfl, hdecides⟩ := h hoperation
      cases q with
      | entry t =>
        obtain ⟨rfl, hnext⟩ := hdecides
        change _ ∧ Decides _ _ _ (next (db.ledger.get (adjustmentId operation)))
        rw [hexisting]
        rcases hnext with ⟨a, hdone, hr⟩ | ⟨e, hraise, hr⟩
        · rw [hdone]
          exact ⟨rfl, hr⟩
        · rw [hraise]
          exact ⟨rfl, hr⟩
      | _ => exact hdecides.elim
    | _ => trivial
  | lock call v k next p => exact h.of_stuck (fun _ hdecides => hdecides) _ _ _
  | write call v w next p => exact h.of_stuck (fun _ hdecides => hdecides) _ _ _
  | insert call v w e next p => exact h.of_stuck (fun _ hdecides => hdecides) _ _ _
  | recover call v w e next p => exact h.of_stuck (fun _ hdecides => hdecides) _ _ _
  | savepoint call v k handler body p => exact h.of_stuck (fun _ hdecides => hdecides) _ _ _
  | release call v next p => exact h.of_stuck (fun _ hdecides => hdecides) _ _ _

variable {ι : Type} [DecidableEq ι]
  {c c' : Config ι PointsDb (Session statements Call PointsError Receipt)}

/-- The entry of an operation stays as it is through every step. -/
theorem step_keeps_entry {a : Move ι (Call × Receipt)} {t : LedgerId} {e : PointsLedger}
    (hc : (system ι).Reach c) (hstep : (system ι).step c a c')
    (he : c.store.ledger.get t = some e) : c'.store.ledger.get t = some e := by
  rcases service_sound.store_step (fun _ => paired_initial) hc hstep with
    hsame | ⟨_, _, p, hends, hstore⟩
  · rw [hsame]
    exact he
  · rw [hstore]
    exact (program_change hends).keeps_entry he

theorem step_replays {a : Move ι (Call × Receipt)} {i : ι}
    (hexisting : c.store.ledger.get (adjustmentId operation) = some existing)
    (hstep : (system ι).step c a c') (h : Replays operation existing (c.proc i)) :
    Replays operation existing (c'.proc i) := by
  cases hstep with
  | read j m hread =>
    by_cases hij : i = j
    · subst hij
      simp only [Function.update_self]
      exact h.statement hexisting hread
    · simp only [Function.update_of_ne hij]
      exact h
  | commit j b m s' hcommit =>
    by_cases hij : i = j
    · subst hij
      simp only [Function.update_self]
      change Service.Commit c.store (c.proc i) b m s' at hcommit
      generalize c.proc i = m₀ at hcommit
      cases hcommit
      trivial
    · simp only [Function.update_of_ne hij]
      exact h

/-- A call that began with the entry there is given its answer and changes nothing. -/
theorem replays_answer {l : Option (Call × Receipt)} {i : ι} {r : Except PointsError Receipt}
    (h : Replays operation existing (c.proc i)) (hstep : (system ι).step c (i, l) c')
    (hended : c'.proc i = .ended (.adjust actor user amount reason operation) r) :
    r = replayAnswer existing actor user amount reason operation ∧ c'.store = c.store := by
  cases hstep with
  | read i m hread =>
    simp only [Function.update_self] at hended
    subst hended
    change service.Statement c.store (c.proc i) (.ended _ r) at hread
    generalize c.proc i = m₀ at hread h
    cases hread with
    | violated _ v w e next p => exact (h rfl).2.elim
    | raise _ v e p => exact ⟨(h rfl).2.symm, rfl⟩
  | commit i b m s' hcommit =>
    simp only [Function.update_self] at hended
    subst hended
    change Service.Commit c.store (c.proc i) b (.ended _ r) s' at hcommit
    generalize c.proc i = m₀ at hcommit h
    cases hcommit with
    | mk _ v a p =>
      obtain ⟨rfl, hanswer⟩ := h rfl
      exact ⟨hanswer.symm, rfl⟩

/-- Once the entry is there it stays, and every call of a session that was not in the middle
of one is answered from it. -/
theorem run_replays {l : List _} (hc : (system ι).Reach c)
    (hexisting : c.store.ledger.get (adjustmentId operation) = some existing)
    (hrun : (system ι).Run c l c') {i : ι} (hi : Replays operation existing (c.proc i)) :
    c'.store.ledger.get (adjustmentId operation) = some existing ∧
      Replays operation existing (c'.proc i) := by
  refine System.Run.keeps (P := fun c => c.store.ledger.get (adjustmentId operation) = some existing ∧
    Replays operation existing (c.proc i)) ?_ hc hrun ⟨hexisting, hi⟩
  intro c a c' hc ⟨hexisting, hi⟩ hstep
  exact ⟨step_keeps_entry hc hstep hexisting, step_replays hexisting hstep hi⟩

end Replays

/-- An adjustment that does not post leaves the ledger and every balance alone. -/
theorem AdjustmentEnds.unchanged {db db' : PointsDb} {actor : Actor} {user : UserId} {amount : ℤ}
    {reason : Option Text} {operation : OperationId} {r : Except PointsError Receipt}
    (h : AdjustmentEnds db db' actor user amount reason operation r)
    (hexisting : db.ledger.get (adjustmentId operation) ≠ none) :
    db'.ledger = db.ledger ∧ ∀ u, db'.wallet u = db.wallet u := by
  cases h with
  | posted hreason hamount hfree => exact absurd hfree hexisting
  | replayed existing _ _ hstore =>
    rw [hstore]
    exact ⟨rfl, fun _ => rfl⟩
  | conflict existing _ _ hstore =>
    rw [hstore]
    exact ⟨rfl, fun _ => rfl⟩
  | refused e _ hstore =>
    rw [hstore]
    exact ⟨rfl, fun _ => rfl⟩
  | outraced existing _ _ hstore =>
    rcases hstore with rfl | ⟨_, rfl⟩
    · exact ⟨rfl, fun _ => rfl⟩
    · exact ⟨PointsDb.openWallet_ledger db user, PointsDb.openWallet_wallet db user⟩

/-- Adjustments with one operation id, in every interleaving: the ledger never has two entries
for it, every call ends as `AdjustmentEnds` lists, and once the entry is there it stays and
answers every call that begins. -/
theorem adjustment_once {ι : Type} [DecidableEq ι]
    {c : Config ι PointsDb (Session statements Call PointsError Receipt)}
    (hc : (system ι).Reach c) (operation : OperationId) :
    (c.store.ledger.count fun _ e => e.triple = adjustmentId operation) ≤ 1 ∧
      (∀ i l c', (system ι).step c (i, l) c' → ∀ actor user amount reason r,
        c'.proc i = .ended (.adjust actor user amount reason operation) r →
        AdjustmentEnds c.store c'.store actor user amount reason operation r ∧
          (c.store.ledger.get (adjustmentId operation) ≠ none →
            c'.store.ledger = c.store.ledger ∧ ∀ u, c'.store.wallet u = c.store.wallet u)) ∧
      ∀ existing, c.store.ledger.get (adjustmentId operation) = some existing →
        ∀ l c', (system ι).Run c l c' →
          c'.store.ledger.get (adjustmentId operation) = some existing ∧
          ∀ i, (∀ call v t p, c.proc i ≠ .running call v t p) →
            ∀ m c'', (system ι).step c' (i, m) c'' → ∀ actor user amount reason r,
              c''.proc i = .ended (.adjust actor user amount reason operation) r →
              r = replayAnswer existing actor user amount reason operation ∧
                c''.store = c'.store := by
  have hchanges := store_changes hc
  have hkeyed := changes_keyed.reach hchanges
  have hadjusted := changes_adjusted.reach hchanges
  refine ⟨?_, fun i l c' hstep actor user amount reason r hended => ?_,
    fun existing hexisting l c' hrun => ⟨?_, fun i hidle m c'' hstep => ?_⟩⟩
  · refine Table.count_le_one (fun _ (e : PointsLedger) => e.triple = adjustmentId operation)
      (k := adjustmentId operation) fun t e he htriple => ?_
    rw [← hkeyed t e he, htriple]
  · obtain ⟨p, hends, hstore⟩ := service_sound.ends (fun _ => paired_initial) hc hstep hended
    have hadjust := adjust_ends hadjusted hends hstore
    exact ⟨hadjust, hadjust.unchanged⟩
  · refine System.Run.keeps (P := fun c : Config ι PointsDb _ =>
      c.store.ledger.get (adjustmentId operation) = some existing) ?_ hc hrun hexisting
    exact fun c a c' hc he hstep => step_keeps_entry hc hstep he
  · intro actor user amount reason r hended
    have hbegin : Replays operation existing (c.proc i) := by
      cases hproc : c.proc i with
      | running call v t p => exact absurd hproc (hidle call v t p)
      | _ => trivial
    exact replays_answer (run_replays hc hexisting hrun hbegin).2 hstep hended

/-- An adjustment of 5 points for user 7, its replay with a padded reason, and another amount
under the same operation id. -/
def adjustedTwice : List Call :=
  [.account 7 .student, .adjust ⟨9, .admin⟩ 7 5 (some ['x']) 1,
    .adjust ⟨9, .admin⟩ 7 5 (some ['x', ' ']) 1, .adjust ⟨9, .admin⟩ 7 6 (some ['x']) 1]

theorem adjustment_once_adjusted_twice :
    let c := service.serially (opening .empty) adjustedTwice
    ((c.store.wallet 7).availablePoints = 5 ∧
      (c.store.ledger.get (adjustmentId 1)).isSome = true) ∧
      (c.store.ledger.count fun _ e => e.triple = adjustmentId 1) ≤ 1 :=
  ⟨by decide +kernel, (adjustment_once (reach_serial_calls .empty adjustedTwice) 1).1⟩

def twoStudents : Config Bool PointsDb (Session statements Call PointsError Receipt) where
  store := { (opening .empty).store with roles := (Table.empty.put 7 .student).put 8 .student }
  proc _ := .idle

def losing : Call := .adjust ⟨9, .admin⟩ 8 5 (some ['x']) 1

def winning : Call := .adjust ⟨9, .admin⟩ 7 5 (some ['x']) 1

def pastLookup : PointsTxn Receipt :=
  match program losing with
  | .ask q next => next (q.answer twoStudents.store)
  | t => t

/-- The losing session stands past its lookup while the other session runs as a whole. -/
def overtaken : Config Bool PointsDb (Session statements Call PointsError Receipt) :=
  Service.finish (Service.withSession twoStudents true (.running losing none pastLookup .start))
    false winning ((program winning).exec twoStudents.store .start none)

/-- The adjustment that loses a race is refused, but it may leave an empty wallet behind. -/
theorem lost_race_opens_wallet :
    ¬ ∀ c, (system Bool).Reach c → ∀ i l c', (system Bool).step c (i, l) c' →
      ∀ actor user amount reason e,
        c'.proc i = .ended (.adjust actor user amount reason 1) (.ok (.adjustment (.error e))) →
        c'.store.ledger = c.store.ledger ∧ c'.store.wallets = c.store.wallets := by
  intro h
  have hidle : ∀ j, j ≠ true → ∀ k, ¬ Service.Session.locks (twoStudents.proc j) k :=
    fun _ _ _ hk => hk
  have hstart : (system Bool).Reach (Service.withSession twoStudents true .idle) := by
    refine .init ⟨⟨rfl, rfl, rfl, rfl⟩, fun i => ?_⟩
    cases i with
    | true => rfl
    | false => rfl
  have hbegun := Service.reach_statement hidle hstart
    (.begin .idle losing (by intro _ _ _ _ hrun; cases hrun))
  have hlooked : (system Bool).Reach
      (Service.withSession twoStudents true (.running losing none pastLookup .start)) :=
    Service.reach_statement hidle hbegun (.ask losing none _ _ .start)
  have hovertaken : (system Bool).Reach overtaken := by
    have hloser : ∀ j, j ≠ false → ∀ k, ¬ Service.Session.locks ((Service.withSession twoStudents
        true (.running losing none pastLookup .start)).proc j) k := by
      intro j hj k hk
      cases j with
      | true => cases hk
      | false => exact hj rfl
    exact Service.reach_call hloser (by intro _ _ _ _ hrun; cases hrun) winning hlooked
  have hsame : Service.withSession overtaken true (.running losing none pastLookup .start) =
      overtaken := by
    have hproc : overtaken.proc true = .running losing none pastLookup .start := rfl
    rw [← hproc]
    simp [Service.withSession]
  have hwinner : ∀ j, j ≠ true → ∀ k, ¬ Service.Session.locks (overtaken.proc j) k := by
    intro j hj k hk
    cases j with
    | true => exact hj rfl
    | false => exact hk
  have hfinish : service.Finishing locking Initial overtaken true losing
      (pastLookup.exec overtaken.store .start none) :=
    Service.finishing_exec hwinner pastLookup none .start (fun _ hsp => by cases hsp)
      (by rw [hsame]; exact hovertaken)
  obtain ⟨c₀, l, hc₀, hstore, hstep⟩ := hfinish
  have hanswer : (pastLookup.exec overtaken.store .start none).1 =
      .ok (.adjustment (.error (.adjustmentOperationConflict 1))) := rfl
  have hended : (Service.finish overtaken true losing
      (pastLookup.exec overtaken.store .start none)).proc true =
      .ended losing (.ok (.adjustment (.error (.adjustmentOperationConflict 1)))) := by
    rw [← hanswer]
    exact Function.update_self true _ overtaken.proc
  have hwallets := (h c₀ hc₀ true l _ hstep ⟨9, .admin⟩ 8 5 (some ['x']) _ hended).2
  have hopened : ((Service.finish overtaken true losing
      (pastLookup.exec overtaken.store .start none)).store.wallets.get 8).isSome = true := by
    decide +kernel
  have hclosed : (overtaken.store.wallets.get 8).isSome = false := by decide +kernel
  rw [← hstore, ← hwallets, hopened] at hclosed
  cases hclosed

end CampusQuest.Points
