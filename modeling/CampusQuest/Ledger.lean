import CampusQuest.PointErrors

/-!
The ledger service: posting an entry with its wallet effects, granting the reward of a
claim exactly once, and reversing it. Each function is followed by what it comes to.
-/

namespace CampusQuest.Points

open Tables Transactions

structure PostLedgerEntry where
  userId : UserId
  ledgerType : LedgerType
  amount : ℤ
  sourceType : SourceType
  affectsBalance : Bool
  affectsRanking : Bool
  rankingEffectiveAt : Option Instant := none
  sourceId : Option ℕ := none
  reversalOfId : Option LedgerId := none
  operatorId : Option UserId := none
  reason : Option Text := none

def validate (command : PostLedgerEntry) : Option PointsError :=
  if command.amount = 0 then
    some (.invalidLedgerEntry .amount "积分流水金额必须是非零整数")
  else if command.ledgerType = .adminAdjustment ∧ strippedReason command.reason = [] then
    some (.invalidLedgerEntry .reason "管理员积分调整必须填写原因")
  else if command.affectsRanking = true ∧ command.rankingEffectiveAt = none then
    some (.invalidLedgerEntry .rankingEffectiveAt "影响排名的积分流水必须提供排名生效时间")
  else if command.affectsRanking = false ∧ command.rankingEffectiveAt ≠ none then
    some (.invalidLedgerEntry .rankingEffectiveAt "不影响排名的积分流水不应提供排名生效时间")
  else if command.sourceId = none ∧ command.ledgerType ≠ .adminAdjustment then
    some (.invalidLedgerEntry .sourceId
      "该类型积分流水必须显式提供 source_id（指向其来源对象）")
  else
    none

def reasonText (reason : Option Text) : Option Text :=
  if strippedReason reason = [] then none else some (strippedReason reason)

/-- The row of a valid command; `mint` is what `uuid4()` gives where no source id is. -/
def PostLedgerEntry.toRow (command : PostLedgerEntry) (mint : ℕ)
    (h : validate command = none) : PointsLedger where
  userId := command.userId
  ledgerType := command.ledgerType
  amount := command.amount
  sourceType := command.sourceType
  sourceId := command.sourceId.getD mint
  affectsBalance := command.affectsBalance
  affectsRanking := command.affectsRanking
  rankingEffectiveAt := command.rankingEffectiveAt
  reversalOfId := command.reversalOfId
  operatorId := command.operatorId
  reason := reasonText command.reason
  amount_ne_zero := by
    intro hzero
    simp [validate, hzero] at h
  ranking_effective_required := by
    intro hranking hnone
    simp only [validate, hranking, hnone] at h
    split_ifs at h
    all_goals simp_all
  admin_reason_required := by
    intro hadmin hnone
    unfold reasonText at hnone
    split_ifs at hnone with hblank
    simp only [validate, hadmin, hblank] at h
    split_ifs at h
    all_goals simp_all

/-- The wallet after an entry: the balance moves by every balance-affecting amount, the
earned points by positive ranking-affecting ones only. -/
def PointWallet.credit (w : PointWallet) (e : PointsLedger) : PointWallet where
  availablePoints := w.availablePoints + if e.affectsBalance = true then e.amount else 0
  earnedPoints := w.earnedPoints + if e.affectsRanking = true ∧ 0 < e.amount then e.amount else 0
  earned_points := by
    have hearned := w.earned_points
    split <;> omega

def PointsLedger.touchesWallet (e : PointsLedger) : Prop :=
  e.affectsBalance = true ∨ (e.affectsRanking = true ∧ 0 < e.amount)

instance (e : PointsLedger) : Decidable e.touchesWallet := inferInstanceAs (Decidable (_ ∨ _))

def lockedOrCreatedWallet (user : UserId) : PointsTxn PointWallet := do
  lock (.wallet user)
  match ← ask (.wallet user) with
  | some wallet => return wallet
  | none => do
    write (.wallet user .zero)
    return .zero

/-- The entry is inserted before the wallet moves, so a unique violation leaves the wallet
untouched. -/
def postEntry (command : PostLedgerEntry) (mint : ℕ := 0) : PointsTxn PointsLedger :=
  match h : validate command with
  | some e => refuse e
  | none =>
    let entry := command.toRow mint h
    if entry.touchesWallet then do
      let wallet ← lockedOrCreatedWallet command.userId
      insert (.entry entry)
      write (.wallet command.userId (wallet.credit entry))
      return entry
    else do
      insert (.entry entry)
      return entry

def claimReward (claim : ClaimId) : LedgerId := ⟨.assignmentClaim, claim, .assignmentReward⟩

def claimReversal (sourceType : SourceType) (sourceId : ℕ) : LedgerId :=
  ⟨sourceType, sourceId, .assignmentRewardReversal⟩

def rewardCommand (claim : ClaimId) (user : UserId) (amount : ℤ) (effectiveAt : Instant) :
    PostLedgerEntry where
  userId := user
  ledgerType := .assignmentReward
  amount := amount
  sourceType := .assignmentClaim
  sourceId := some claim
  affectsBalance := true
  affectsRanking := true
  rankingEffectiveAt := some effectiveAt

def grantAssignmentReward (claim : ClaimId) (user : UserId) (amount : ℤ)
    (rankingEffectiveAt : Option Instant) : PointsTxn PointsLedger :=
  if amount ≤ 0 then
    refuse (.invalidLedgerEntry .amount "任务奖励必须为正数积分")
  else match rankingEffectiveAt with
  | none =>
    refuse (.invalidLedgerEntry .rankingEffectiveAt
      "任务奖励必须携带排名生效时间（认领的奖励锁时间）")
  | some effectiveAt => do
    match ← ask (.entry (claimReward claim)) with
    | some existing => return existing
    | none =>
      -- The race loser's insert is undone by the savepoint; the winner's row is read back.
      Txn.nested (.entry (claimReward claim))
        (do
          match ← ask (.entry (claimReward claim)) with
          | some existing => return existing
          | none => refuse (.integrityError (.entry (claimReward claim))))
        (postEntry (rewardCommand claim user amount effectiveAt))

def reversalCommand (original : PointsLedger) (ledgerId : LedgerId) (operator : UserId)
    (reason : Text) (effectiveAt : Instant) : PostLedgerEntry where
  userId := original.userId
  ledgerType := .assignmentRewardReversal
  amount := -original.amount
  sourceType := original.sourceType
  sourceId := some original.sourceId
  affectsBalance := true
  affectsRanking := true
  rankingEffectiveAt := some effectiveAt
  reversalOfId := some ledgerId
  operatorId := some operator
  reason := some reason

def reverseAssignmentReward (actor : Actor) (ledgerId : LedgerId) (reason : Option Text) :
    PointsTxn PointsLedger :=
  if strippedReason reason = [] then
    refuse (.reversalReasonRequired ledgerId)
  else if actor.role ≠ .admin then
    refuse (.reversalPermissionDenied actor.userId actor.role)
  else do
    match ← ask (.entry ledgerId) with
    | none => refuse (.ledgerEntryNotFound ledgerId)
    | some original =>
      if original.ledgerType ≠ .assignmentReward then
        refuse (.ledgerEntryNotReversible ledgerId original.ledgerType)
      else match original.rankingEffectiveAt with
      | none => refuse .assertionFailed
      | some effectiveAt => do
        let reversal := claimReversal original.sourceType original.sourceId
        let _ ← lockedOrCreatedWallet original.userId
        match ← ask (.entry reversal) with
        | some existing =>
          refuse (.rewardAlreadyReversed ledgerId original.sourceId existing.triple)
        | none =>
          Txn.nested (.entry reversal)
            (do
              match ← ask (.entry reversal) with
              | some winner =>
                refuse (.rewardAlreadyReversed ledgerId original.sourceId winner.triple)
              | none => refuse (.integrityError (.entry reversal)))
            (postEntry
              (reversalCommand original ledgerId actor.userId (strippedReason reason) effectiveAt))

namespace PointsDb

/-- The tables once the user's wallet row exists. -/
def openWallet (db : PointsDb) (u : UserId) : PointsDb :=
  match db.wallets.get u with
  | some _ => db
  | none => { db with wallets := db.wallets.put u .zero }

def post (db : PointsDb) (e : PointsLedger) : PointsDb :=
  { db with
    ledger := db.ledger.put e.triple e
    wallets := if e.touchesWallet then
      db.wallets.put e.userId ((db.wallet e.userId).credit e) else db.wallets }

@[simp] theorem openWallet_ledger (db : PointsDb) (u : UserId) :
    (db.openWallet u).ledger = db.ledger := by
  unfold openWallet
  split <;> rfl

@[simp] theorem openWallet_items (db : PointsDb) (u : UserId) :
    (db.openWallet u).items = db.items := by
  unfold openWallet
  split <;> rfl

@[simp] theorem openWallet_redemptions (db : PointsDb) (u : UserId) :
    (db.openWallet u).redemptions = db.redemptions := by
  unfold openWallet
  split <;> rfl

@[simp] theorem openWallet_reservations (db : PointsDb) (u : UserId) :
    (db.openWallet u).reservations = db.reservations := by
  unfold openWallet
  split <;> rfl

@[simp] theorem openWallet_wallet (db : PointsDb) (u v : UserId) :
    (db.openWallet u).wallet v = db.wallet v := by
  unfold openWallet
  split
  · rfl
  next hnone =>
    unfold wallet
    rw [Table.get_put]
    by_cases hv : v = u
    · rw [if_pos hv, hv, hnone]
      rfl
    · rw [if_neg hv]

@[simp] theorem post_ledger (db : PointsDb) (e : PointsLedger) :
    (db.post e).ledger = db.ledger.put e.triple e := rfl

@[simp] theorem post_items (db : PointsDb) (e : PointsLedger) : (db.post e).items = db.items := rfl

@[simp] theorem post_redemptions (db : PointsDb) (e : PointsLedger) :
    (db.post e).redemptions = db.redemptions := rfl

@[simp] theorem post_reservations (db : PointsDb) (e : PointsLedger) :
    (db.post e).reservations = db.reservations := rfl

theorem credit_of_not_touches {e : PointsLedger} (w : PointWallet) (h : ¬ e.touchesWallet) :
    w.credit e = w := by
  have hbalance : ¬ e.affectsBalance = true := fun hb => h (Or.inl hb)
  have hranking : ¬ (e.affectsRanking = true ∧ 0 < e.amount) := fun hr => h (Or.inr hr)
  unfold PointWallet.credit
  simp only [if_neg hbalance, if_neg hranking, add_zero]

/-- Posting credits the entry to its user's wallet and to no other. -/
theorem post_wallet (db : PointsDb) (e : PointsLedger) (u : UserId) :
    (db.post e).wallet u = if e.userId = u then (db.wallet u).credit e else db.wallet u := by
  by_cases htouch : e.touchesWallet
  · have hwallets : (db.post e).wallets =
        db.wallets.put e.userId ((db.wallet e.userId).credit e) := if_pos htouch
    unfold wallet at hwallets ⊢
    rw [hwallets, Table.get_put]
    by_cases hu : u = e.userId
    · subst hu
      rw [if_pos rfl, if_pos rfl]
      rfl
    · rw [if_neg hu, if_neg (Ne.symm hu)]
  · have hwallets : (db.post e).wallets = db.wallets := if_neg htouch
    rw [credit_of_not_touches _ htouch, ite_self]
    unfold wallet
    rw [hwallets]

/-- Creating the wallet row first makes no difference to a posting that touches it. -/
theorem openWallet_post (db : PointsDb) {e : PointsLedger} (htouch : e.touchesWallet) :
    (db.openWallet e.userId).post e = db.post e := by
  have hput : (db.openWallet e.userId).wallets.put e.userId ((db.wallet e.userId).credit e) =
      db.wallets.put e.userId ((db.wallet e.userId).credit e) := by
    unfold openWallet
    split
    · rfl
    · exact Table.put_put _ _ _ _
  have hwallet := openWallet_wallet db e.userId e.userId
  unfold post
  rw [if_pos htouch, if_pos htouch, hwallet, hput]
  unfold openWallet
  split <;> rfl

end PointsDb

section Outcomes

variable {db : PointsDb} {p p' : Pending statements}

theorem lockedOrCreatedWallet_ends {u : UserId} {r : Except PointsError PointWallet}
    (h : (lockedOrCreatedWallet u).Ends locking db p r p') :
    r = .ok ((p.view db).wallet u) ∧ p'.view db = (p.view db).openWallet u ∧
      .wallet u ∈ p'.locks ∧ p'.catches = p.catches ∧
      Extends (fun w => ∃ row, w = .wallet u row) p p' := by
  unfold lockedOrCreatedWallet at h
  rw [ends_lock, ends_ask] at h
  obtain ⟨a, hret, h⟩ := h
  have hget : (p.view db).wallets.get u = a := hret List.mem_cons_self
  cases a with
  | some w =>
    obtain ⟨rfl, rfl⟩ := ends_pure.mp h
    refine ⟨?_, ?_, List.mem_cons_self, rfl, Extends.hold _⟩
    · unfold PointsDb.wallet
      rw [hget]
      rfl
    · unfold PointsDb.openWallet
      rw [hget]
      rfl
  | none =>
    dsimp only at h
    rw [ends_write, ends_pure] at h
    obtain ⟨rfl, rfl⟩ := h
    refine ⟨?_, ?_, List.mem_cons_of_mem _ List.mem_cons_self, rfl,
      (Extends.hold _).trans (Extends.add ⟨_, rfl⟩)⟩
    · unfold PointsDb.wallet
      rw [hget]
      rfl
    · unfold PointsDb.openWallet
      rw [hget, Pending.view_add]
      rfl

/-- A posting writes its row and its user's wallet. -/
def Posting (e : PointsLedger) (w : Write) : Prop :=
  w = .entry e ∨ ∃ row, w = .wallet e.userId row

/-- A command is refused, or loses its source triple to a row that is there, or is posted. -/
theorem postEntry_ends {command : PostLedgerEntry} {mint : ℕ} {r : Except PointsError PointsLedger}
    (h : (postEntry command mint).Ends locking db p r p') :
    (∃ e, validate command = some e ∧ r = .error e) ∨
      ∃ hvalid : validate command = none,
        ((p.view db).ledger.get (command.toRow mint hvalid).triple ≠ none ∧
          (p.catches = some (.entry (command.toRow mint hvalid).triple) →
            db.ledger.get (command.toRow mint hvalid).triple = none) ∧
          r = .error (.integrityError (.entry (command.toRow mint hvalid).triple))) ∨
        ((p.view db).ledger.get (command.toRow mint hvalid).triple = none ∧
          r = .ok (command.toRow mint hvalid) ∧
          p'.view db = (p.view db).post (command.toRow mint hvalid) ∧
          Extends (Posting (command.toRow mint hvalid)) p p') := by
  unfold postEntry at h
  split at h
  next e he => exact Or.inl ⟨e, he, (ends_refuse.mp h).1⟩
  next hvalid =>
    refine Or.inr ⟨hvalid, ?_⟩
    generalize hrow : command.toRow mint hvalid = e at h ⊢
    have huser : command.userId = e.userId := by
      rw [← hrow]
      rfl
    have htaken : ∀ db' : PointsDb, (Write.entry e).row.taken db' = true ↔
        db'.ledger.get e.triple ≠ none := fun db' => Option.isSome_iff_ne_none
    have huncaught : (p.catches = some (Write.entry e).row →
        ¬ (Write.entry e).row.taken db = true) →
        p.catches = some (.entry e.triple) → db.ledger.get e.triple = none := by
      intro h hcatch
      have hnot := h hcatch
      rw [htaken, not_not] at hnot
      exact hnot
    rw [huser] at h
    dsimp only at h
    split at h
    next htouch =>
      rcases ends_seq.mp h with ⟨w, p₁, hwallet, hrest⟩ | ⟨err, hwallet, rfl⟩
      · obtain ⟨hw, hview, _, hcatches, hext⟩ := lockedOrCreatedWallet_ends hwallet
        cases hw
        have hledger : (p₁.view db).ledger = (p.view db).ledger := by
          rw [hview, PointsDb.openWallet_ledger]
        rcases ends_insert.mp hrest with ⟨hfree, hrest⟩ | ⟨hviolated, hopen, rfl, rfl⟩
        · rw [ends_write, ends_pure] at hrest
          obtain ⟨rfl, rfl⟩ := hrest
          rw [htaken, hledger, not_not] at hfree
          refine Or.inr ⟨hfree, rfl, ?_, ?_⟩
          · rw [Pending.view_add, Pending.view_add, hview, ← PointsDb.openWallet_post _ htouch]
            unfold PointsDb.post
            rw [if_pos htouch, PointsDb.openWallet_wallet]
            rfl
          · refine (hext.mono fun w hw => Or.inr hw).trans ?_
            exact (Extends.add (Or.inl rfl)).trans (Extends.add (Or.inr ⟨_, rfl⟩))
        · rw [htaken, hledger] at hviolated
          rw [hcatches] at hopen
          exact Or.inl ⟨hviolated, huncaught hopen, rfl⟩
      · have hw := (lockedOrCreatedWallet_ends hwallet).1
        cases hw
    next htouch =>
      rcases ends_insert.mp h with ⟨hfree, hrest⟩ | ⟨hviolated, hopen, rfl, rfl⟩
      · obtain ⟨rfl, rfl⟩ := ends_pure.mp hrest
        rw [htaken, not_not] at hfree
        refine Or.inr ⟨hfree, rfl, ?_, Extends.add (Or.inl rfl)⟩
        rw [Pending.view_add]
        unfold PointsDb.post
        rw [if_neg htouch]
        rfl
      · rw [htaken] at hviolated
        exact Or.inl ⟨hviolated, huncaught hopen, rfl⟩

/-- A posting that succeeds has written its row. -/
theorem postEntry_ends_ok {command : PostLedgerEntry} {mint : ℕ} {e : PointsLedger}
    (h : (postEntry command mint).Ends locking db p (.ok e) p') :
    ∃ hvalid : validate command = none, e = command.toRow mint hvalid ∧
      (p.view db).ledger.get e.triple = none ∧ p'.view db = (p.view db).post e ∧
      Extends (Posting e) p p' := by
  rcases postEntry_ends h with ⟨_, _, he⟩ | ⟨hvalid, ⟨_, _, he⟩ | ⟨hfree, he, hview, hext⟩⟩
  · cases he
  · cases he
  · cases he
    exact ⟨hvalid, rfl, hfree, hview, hext⟩

theorem validate_rewardCommand (claim : ClaimId) (user : UserId) {amount : ℤ}
    (effectiveAt : Instant) (h : 0 < amount) :
    validate (rewardCommand claim user amount effectiveAt) = none := by
  have hne : amount ≠ 0 := by omega
  simp [validate, rewardCommand, hne]

theorem validate_reversalCommand (original : PointsLedger) (id : LedgerId) (operator : UserId)
    (reason : Text) (effectiveAt : Instant) :
    validate (reversalCommand original id operator reason effectiveAt) = none := by
  have hne := original.amount_ne_zero
  simp [validate, reversalCommand, hne]

def rewardRow (claim : ClaimId) (user : UserId) (amount : ℤ) (effectiveAt : Instant)
    (h : 0 < amount) : PointsLedger :=
  (rewardCommand claim user amount effectiveAt).toRow 0
    (validate_rewardCommand claim user effectiveAt h)

def reversalRow (original : PointsLedger) (id : LedgerId) (operator : UserId) (reason : Text)
    (effectiveAt : Instant) : PointsLedger :=
  (reversalCommand original id operator reason effectiveAt).toRow 0
    (validate_reversalCommand original id operator reason effectiveAt)

/-- A nested posting is committed, or its source triple is taken and the handler answers. -/
theorem nested_postEntry_ends {command : PostLedgerEntry} {handler : PointsTxn PointsLedger}
    {r : Except PointsError PointsLedger} (hvalid : validate command = none)
    (hledger : (p.view db).ledger = db.ledger)
    (h : (Txn.nested (.entry (command.toRow 0 hvalid).triple) handler
      (postEntry command)).Ends locking db p r p') :
    (db.ledger.get (command.toRow 0 hvalid).triple = none ∧
      r = .ok (command.toRow 0 hvalid) ∧
      p'.view db = (p.view db).post (command.toRow 0 hvalid) ∧
      Extends (Posting (command.toRow 0 hvalid)) p p') ∨
    (handler.Ends locking db (p.recover (.entry (command.toRow 0 hvalid).triple)) r p') := by
  rcases Txn.ends_nested h with ⟨p₁, hbody, hp'⟩ | ⟨_, hhandler⟩
  · rcases postEntry_ends hbody with ⟨e, he, _⟩ | ⟨_, ⟨hviolated, hopen, _⟩ | hposted⟩
    · rw [hvalid] at he
      cases he
    · rw [Pending.view_enter, hledger] at hviolated
      exact absurd (hopen rfl) hviolated
    · obtain ⟨hfree, hr, hview, hext⟩ := hposted
      rw [Pending.view_enter] at hfree hview
      rw [hledger] at hfree
      refine Or.inl ⟨hfree, hr, ?_, ?_⟩
      · rcases hp' with rfl | rfl
        · exact hview
        · exact hview
      · rcases hp' with rfl | rfl
        · exact ⟨hext.locks, hext.writes⟩
        · exact ⟨hext.locks, hext.writes⟩
  · exact Or.inr hhandler

/-- A grant is refused for its arguments, or returns the reward row that is there and writes
nothing, or posts the reward. -/
theorem grantAssignmentReward_ends {claim : ClaimId} {user : UserId} {amount : ℤ}
    {rankingEffectiveAt : Option Instant} {r : Except PointsError PointsLedger}
    (h : (grantAssignmentReward claim user amount rankingEffectiveAt).Ends locking db .start r p') :
    (amount ≤ 0 ∧ r = .error (.invalidLedgerEntry .amount "任务奖励必须为正数积分")) ∨
    (rankingEffectiveAt = none ∧ r = .error (.invalidLedgerEntry .rankingEffectiveAt
      "任务奖励必须携带排名生效时间（认领的奖励锁时间）")) ∨
    (∃ e, db.ledger.get (claimReward claim) = some e ∧ r = .ok e ∧ p'.writes = []) ∨
    ∃ effectiveAt, ∃ hpos : 0 < amount,
      rankingEffectiveAt = some effectiveAt ∧ db.ledger.get (claimReward claim) = none ∧
        r = .ok (rewardRow claim user amount effectiveAt hpos) ∧
        p'.view db = db.post (rewardRow claim user amount effectiveAt hpos) ∧
        Extends (Posting (rewardRow claim user amount effectiveAt hpos)) .start p' := by
  unfold grantAssignmentReward at h
  split at h
  next hamount => exact Or.inl ⟨hamount, (ends_refuse.mp h).1⟩
  next hamount =>
    have hpos : 0 < amount := by omega
    cases rankingEffectiveAt with
    | none => exact Or.inr (Or.inl ⟨rfl, (ends_refuse.mp h).1⟩)
    | some effectiveAt =>
      rw [ends_ask] at h
      obtain ⟨a, ⟨hfound, _⟩, h⟩ := h
      cases a with
      | some existing =>
        obtain ⟨rfl, rfl⟩ := ends_pure.mp h
        exact Or.inr (Or.inr (Or.inl ⟨existing, hfound existing rfl, rfl, rfl⟩))
      | none =>
        have hvalid := validate_rewardCommand claim user effectiveAt hpos
        rcases nested_postEntry_ends hvalid rfl h with ⟨hfree, hr, hview, hext⟩ | hhandler
        · exact Or.inr (Or.inr (Or.inr ⟨effectiveAt, hpos, rfl, hfree, hr, hview, hext⟩))
        · rw [ends_ask] at hhandler
          obtain ⟨b, ⟨hwinner, hseen⟩, hhandler⟩ := hhandler
          cases b with
          | some winner =>
            obtain ⟨rfl, rfl⟩ := ends_pure.mp hhandler
            exact Or.inr (Or.inr (Or.inl ⟨winner, hwinner winner rfl, rfl, rfl⟩))
          | none => exact absurd rfl (hseen List.mem_cons_self)

inductive ReversalGate (db : PointsDb) (actor : Actor) (id : LedgerId) (reason : Option Text) :
    PointsError → Prop
  | reason (h : strippedReason reason = []) :
      ReversalGate db actor id reason (.reversalReasonRequired id)
  | actor (h : actor.role ≠ .admin) :
      ReversalGate db actor id reason (.reversalPermissionDenied actor.userId actor.role)
  | notFound : ReversalGate db actor id reason (.ledgerEntryNotFound id)
  | notReversible (original : PointsLedger) (horiginal : db.ledger.get id = some original)
      (h : original.ledgerType ≠ .assignmentReward) :
      ReversalGate db actor id reason (.ledgerEntryNotReversible id original.ledgerType)
  | unattributed (original : PointsLedger) (horiginal : db.ledger.get id = some original)
      (htype : original.ledgerType = .assignmentReward)
      (h : original.rankingEffectiveAt = none) :
      ReversalGate db actor id reason .assertionFailed

/-- A reversal is refused by a gate, or refused because the reward is reversed already, or
posts the exact negation of the reward. -/
theorem reverseAssignmentReward_ends {actor : Actor} {id : LedgerId} {reason : Option Text}
    {r : Except PointsError PointsLedger}
    (h : (reverseAssignmentReward actor id reason).Ends locking db .start r p') :
    (∃ e, ReversalGate db actor id reason e ∧ r = .error e) ∨
    ∃ original effectiveAt, db.ledger.get id = some original ∧
      original.ledgerType = .assignmentReward ∧ original.rankingEffectiveAt = some effectiveAt ∧
      ((∃ winner,
        db.ledger.get (claimReversal original.sourceType original.sourceId) = some winner ∧
        r = .error (.rewardAlreadyReversed id original.sourceId winner.triple)) ∨
      (db.ledger.get (claimReversal original.sourceType original.sourceId) = none ∧
        r = .ok (reversalRow original id actor.userId (strippedReason reason) effectiveAt) ∧
        p'.view db =
          db.post (reversalRow original id actor.userId (strippedReason reason) effectiveAt) ∧
        Extends (Posting (reversalRow original id actor.userId (strippedReason reason) effectiveAt))
          .start p')) := by
  unfold reverseAssignmentReward at h
  split at h
  next hreason => exact Or.inl ⟨_, .reason hreason, (ends_refuse.mp h).1⟩
  next hreason =>
  split at h
  next hactor => exact Or.inl ⟨_, .actor hactor, (ends_refuse.mp h).1⟩
  next hactor =>
  rw [ends_ask] at h
  obtain ⟨a, ⟨hfound, _⟩, h⟩ := h
  cases a with
  | none => exact Or.inl ⟨_, .notFound, (ends_refuse.mp h).1⟩
  | some original =>
    dsimp only at h
    split at h
    next htype =>
      exact Or.inl ⟨_, .notReversible original (hfound original rfl) htype, (ends_refuse.mp h).1⟩
    next htype =>
    rw [ne_eq, not_not] at htype
    cases hat : original.rankingEffectiveAt with
    | none =>
      rw [hat] at h
      exact Or.inl ⟨_, .unattributed original (hfound original rfl) htype hat,
        (ends_refuse.mp h).1⟩
    | some effectiveAt =>
      rw [hat] at h
      refine Or.inr ⟨original, effectiveAt, hfound original rfl, htype, hat, ?_⟩
      rcases ends_seq.mp h with ⟨w, p₁, hwallet, hrest⟩ | ⟨e, hwallet, rfl⟩
      · obtain ⟨_, hview, _, _, hext⟩ := lockedOrCreatedWallet_ends hwallet
        rw [Pending.view_start] at hview
        have hledger : (p₁.view db).ledger = db.ledger := by
          rw [hview, PointsDb.openWallet_ledger]
        rw [ends_ask] at hrest
        obtain ⟨b, ⟨hexisting, _⟩, hrest⟩ := hrest
        rw [hledger] at hexisting
        cases b with
        | some existing =>
          exact Or.inl ⟨existing, hexisting existing rfl, (ends_refuse.mp hrest).1⟩
        | none =>
          have hvalid := validate_reversalCommand original id actor.userId
            (strippedReason reason) effectiveAt
          rcases nested_postEntry_ends hvalid hledger hrest with
            ⟨hfree, hr, hposted, hext'⟩ | hhandler
          · refine Or.inr ⟨hfree, hr, ?_, ?_⟩
            · rw [hposted, hview]
              exact PointsDb.openWallet_post db (e := reversalRow original id actor.userId
                (strippedReason reason) effectiveAt) (Or.inl rfl)
            · exact (hext.mono fun w hw => Or.inr hw).trans hext'
          · rw [ends_ask] at hhandler
            obtain ⟨c, ⟨hwinner, hseen⟩, hhandler⟩ := hhandler
            rw [Pending.view_recover, hledger] at hwinner
            cases c with
            | some winner =>
              exact Or.inl ⟨winner, hwinner winner rfl, (ends_refuse.mp hhandler).1⟩
            | none => exact absurd rfl (hseen List.mem_cons_self)
      · obtain ⟨hw, _⟩ := lockedOrCreatedWallet_ends hwallet
        cases hw

end Outcomes

end CampusQuest.Points
