import CampusQuest.PointService

/-!
Exactly one reward and at most one reversal for a claim. The source triple decides every
race: a grant that loses it returns the row that won, and a reversal that comes second is
refused with an error that names the first. Either way nothing is written.
-/

namespace CampusQuest.Points

open Tables Transactions Locking

/-- The reward and reversal rows are what the claims they pay for say. -/
structure Attributed (db : PointsDb) : Prop where
  keyed : Keyed db
  ranked : ∀ t e, db.ledger.get t = some e → e.ledgerType = .assignmentReward →
    e.affectsRanking = true
  reversed : ∀ t e, db.ledger.get t = some e → e.ledgerType = .assignmentRewardReversal →
    ∃ original, db.ledger.get ⟨e.sourceType, e.sourceId, .assignmentReward⟩ = some original ∧
      e.amount = -original.amount ∧ e.rankingEffectiveAt = original.rankingEffectiveAt

namespace Attributed

variable {db db' : PointsDb}

theorem initial (h : Initial db) : Attributed db := by
  have hkeyed := Keyed.initial h
  obtain ⟨_, hledger, _, _⟩ := h
  have hnone : ∀ t e, db.ledger.get t = some e → False := by
    intro t e he
    rw [hledger, Table.get_empty] at he
    cases he
  exact ⟨hkeyed, fun t e he _ => (hnone t e he).elim, fun t e he _ => (hnone t e he).elim⟩

theorem congr (h : Attributed db) (hledger : db'.ledger = db.ledger) : Attributed db' := by
  constructor
  · unfold Keyed
    rw [hledger]
    exact h.keyed
  · rw [hledger]
    exact h.ranked
  · rw [hledger]
    exact h.reversed

/-- A new entry keeps the attribution when it is attributed itself. -/
theorem post (h : Attributed db) {e : PointsLedger} (hfree : db.ledger.get e.triple = none)
    (hranked : e.ledgerType = .assignmentReward → e.affectsRanking = true)
    (hreversed : e.ledgerType = .assignmentRewardReversal →
      ∃ original, db.ledger.get ⟨e.sourceType, e.sourceId, .assignmentReward⟩ = some original ∧
        e.amount = -original.amount ∧ e.rankingEffectiveAt = original.rankingEffectiveAt) :
    Attributed (db.post e) := by
  have hkeep : ∀ t e', db.ledger.get t = some e' → (db.post e).ledger.get t = some e' :=
    fun t e' he' => Table.get_put_of_fresh hfree he'
  constructor
  · exact h.keyed.post e
  · intro t e' he' htype
    rcases Table.get_put_eq_some he' with ⟨_, rfl⟩ | ⟨_, hold⟩
    · exact hranked htype
    · exact h.ranked t e' hold htype
  · intro t e' he' htype
    rcases Table.get_put_eq_some he' with ⟨_, rfl⟩ | ⟨_, hold⟩
    · obtain ⟨original, horiginal, hrest⟩ := hreversed htype
      exact ⟨original, hkeep _ _ horiginal, hrest⟩
    · obtain ⟨original, horiginal, hrest⟩ := h.reversed t e' hold htype
      exact ⟨original, hkeep _ _ horiginal, hrest⟩

theorem change (h : Attributed db) (hchange : Change db db') : Attributed db' := by
  cases hchange with
  | same => exact h
  | openWallet u => exact h.congr (PointsDb.openWallet_ledger db u)
  | grant claim user amount effectiveAt hpos hfree =>
    exact h.post hfree (fun _ => rfl) (fun htype => by cases htype)
  | reverse original id operator reason effectiveAt horiginal htype hat hfree =>
    refine h.post hfree (fun htype => by cases htype) fun _ => ⟨original, ?_, rfl, hat.symm⟩
    have hkey := h.keyed id original horiginal
    have hid : (⟨original.sourceType, original.sourceId, .assignmentReward⟩ : LedgerId) = id := by
      rw [← hkey, PointsLedger.triple, htype]
    change db.ledger.get ⟨original.sourceType, original.sourceId, .assignmentReward⟩ = _
    rw [hid]
    exact horiginal
  | adjust user amount operation operator reason hreason hamount hfree =>
    exact h.post hfree (fun htype => by cases htype) (fun htype => by cases htype)
  | request id user => exact h.congr (PointsDb.openWallet_ledger db user)
  | approve id redemption reservation now actor _ _ _ hfree =>
    have hposted := h.post hfree (fun htype => by cases htype) (fun htype => by cases htype)
    exact hposted.congr rfl
  | reject id redemption => exact h.congr (PointsDb.openWallet_ledger db redemption.userId)
  | fulfill => exact h.congr rfl
  | item => exact h.congr rfl
  | accounts => exact h.congr rfl

end Attributed

theorem changes_attributed : changes.Inductive Attributed where
  init _ h := Attributed.initial h
  step _ _ _ h hstep := h.change hstep

structure RewardHistory (db : PointsDb) (claim : ClaimId) : Prop where
  one_reward : (db.ledger.count fun _ e => e.triple = claimReward claim) ≤ 1
  one_reversal :
    (db.ledger.count fun _ e => e.triple = claimReversal .assignmentClaim claim) ≤ 1
  reversal_of_reward : ∀ t e, db.ledger.get t = some e →
    e.triple = claimReversal .assignmentClaim claim →
    ∃ original, db.ledger.get (claimReward claim) = some original ∧
      e.amount = -original.amount ∧ e.rankingEffectiveAt = original.rankingEffectiveAt

theorem Attributed.history {db : PointsDb} (h : Attributed db) (claim : ClaimId) :
    RewardHistory db claim where
  one_reward := by
    refine Table.count_le_one (fun _ (e : PointsLedger) => e.triple = claimReward claim)
      (k := claimReward claim) fun t e he htriple => ?_
    rw [← h.keyed t e he, htriple]
  one_reversal := by
    refine Table.count_le_one
      (fun _ (e : PointsLedger) => e.triple = claimReversal .assignmentClaim claim)
      (k := claimReversal .assignmentClaim claim) fun t e he htriple => ?_
    rw [← h.keyed t e he, htriple]
  reversal_of_reward := by
    intro t e he htriple
    have htype : e.ledgerType = .assignmentRewardReversal := congrArg SourceTriple.ledgerType htriple
    have hsource : e.sourceType = .assignmentClaim := congrArg SourceTriple.sourceType htriple
    have hid : e.sourceId = claim := congrArg SourceTriple.sourceId htriple
    obtain ⟨original, horiginal, hrest⟩ := h.reversed t e he htype
    rw [hsource, hid] at horiginal
    exact ⟨original, horiginal, hrest⟩

/-- How a grant ends: with the reward row of the claim, writing only if there was none, or
refused for its own arguments. -/
def GrantEnds (db db' : PointsDb) (claim : ClaimId) (amount : ℤ) (effectiveAt : Option Instant)
    (r : Except PointsError Receipt) : Prop :=
  (∃ e, r = .ok (.entry e) ∧ db'.ledger.get (claimReward claim) = some e ∧
    (db.ledger.get (claimReward claim) = none ∨ db' = db)) ∨
  (amount ≤ 0 ∨ effectiveAt = none) ∧ (∃ err, r = .error err) ∧ db' = db

/-- How a reversal of the claim's reward ends: it posts the first reversal, or it is refused
and writes nothing. One that finds the reward reversed is refused with the winner's id. -/
def ReversalEnds (db db' : PointsDb) (actor : Actor) (claim : ClaimId) (reason : Option Text)
    (r : Except PointsError Receipt) : Prop :=
  (∃ e, r = .ok (.entry e) ∧
    db.ledger.get (claimReversal .assignmentClaim claim) = none ∧
    db'.ledger.get (claimReversal .assignmentClaim claim) = some e) ∨
  (∃ err, r = .error err ∧ db' = db ∧
    ((strippedReason reason = [] ∧ err = .reversalReasonRequired (claimReward claim)) ∨
      (actor.role ≠ .admin ∧ err = .reversalPermissionDenied actor.userId actor.role) ∨
      err = .ledgerEntryNotFound (claimReward claim) ∨
      ∃ winner, db.ledger.get (claimReversal .assignmentClaim claim) = some winner ∧
        err = .rewardAlreadyReversed (claimReward claim) claim winner.triple))

variable {db : PointsDb} {p : Pending statements}

theorem grant_ends {claim : ClaimId} {user : UserId} {amount : ℤ} {effectiveAt : Option Instant}
    {r : Except PointsError Receipt} {db' : PointsDb}
    (h : (program (.grant claim user amount effectiveAt)).Ends locking db .start r p)
    (hstore : (∃ a, r = .ok a ∧ db' = p.view db) ∨ (∃ e, r = .error e ∧ db' = db)) :
    GrantEnds db db' claim amount effectiveAt r := by
  rcases ends_seq.mp h with ⟨e, p₁, hgrant, hrest⟩ | ⟨err, hgrant, rfl⟩
  · obtain ⟨rfl, rfl⟩ := ends_pure.mp hrest
    rcases hstore with ⟨_, _, rfl⟩ | ⟨_, hr, _⟩
    · rcases grantAssignmentReward_ends hgrant with
        ⟨_, he⟩ | ⟨_, he⟩ | ⟨_, hfound, he, hw⟩ | ⟨t, hpos, _, hfree, he, hview, _⟩
      · cases he
      · cases he
      · cases he
        rw [view_of_no_writes hw]
        exact Or.inl ⟨e, rfl, hfound, Or.inr rfl⟩
      · cases he
        refine Or.inl ⟨_, rfl, ?_, Or.inl hfree⟩
        rw [hview]
        exact Table.get_put_self _ _ _
    · cases hr
  · rcases hstore with ⟨_, hr, _⟩ | ⟨_, _, rfl⟩
    · cases hr
    · rcases grantAssignmentReward_ends hgrant with
        ⟨hamount, _⟩ | ⟨hnone, _⟩ | ⟨_, _, he, _⟩ | ⟨t, hpos, _, _, he, _⟩
      · exact Or.inr ⟨Or.inl hamount, ⟨err, rfl⟩, rfl⟩
      · exact Or.inr ⟨Or.inr hnone, ⟨err, rfl⟩, rfl⟩
      · cases he
      · cases he

theorem reverse_ends {actor : Actor} {claim : ClaimId} {reason : Option Text}
    {r : Except PointsError Receipt} {db' : PointsDb} (hdb : Attributed db)
    (h : (program (.reverse actor (claimReward claim) reason)).Ends locking db .start r p)
    (hstore : (∃ a, r = .ok a ∧ db' = p.view db) ∨ (∃ e, r = .error e ∧ db' = db)) :
    ReversalEnds db db' actor claim reason r := by
  have hsource : ∀ original, db.ledger.get (claimReward claim) = some original →
      claimReversal original.sourceType original.sourceId =
        claimReversal .assignmentClaim claim ∧ original.sourceId = claim := by
    intro original horiginal
    have hkey := hdb.keyed _ _ horiginal
    have hst : original.sourceType = .assignmentClaim := congrArg SourceTriple.sourceType hkey
    have hid : original.sourceId = claim := congrArg SourceTriple.sourceId hkey
    rw [hst, hid]
    exact ⟨rfl, rfl⟩
  rcases ends_seq.mp h with ⟨e, p₁, hreverse, hrest⟩ | ⟨err, hreverse, rfl⟩
  · obtain ⟨rfl, rfl⟩ := ends_pure.mp hrest
    rcases hstore with ⟨_, _, rfl⟩ | ⟨_, hr, _⟩
    · rcases reverseAssignmentReward_ends hreverse with ⟨_, _, he⟩ |
        ⟨original, t, horiginal, _, _, ⟨_, _, he⟩ | ⟨hfree, he, hview, _⟩⟩
      · cases he
      · cases he
      · cases he
        rw [(hsource original horiginal).1] at hfree
        refine Or.inl ⟨_, rfl, hfree, ?_⟩
        rw [hview, ← (hsource original horiginal).1]
        exact Table.get_put_self _ _ _
    · cases hr
  · rcases hstore with ⟨_, hr, _⟩ | ⟨_, _, rfl⟩
    · cases hr
    · refine Or.inr ⟨err, rfl, rfl, ?_⟩
      rcases reverseAssignmentReward_ends hreverse with ⟨_, hgate, he⟩ |
        ⟨original, t, horiginal, _, _, ⟨winner, hwinner, he⟩ | ⟨_, he, _⟩⟩
      · cases he
        cases hgate with
        | reason hblank => exact Or.inl ⟨hblank, rfl⟩
        | actor hactor => exact Or.inr (Or.inl ⟨hactor, rfl⟩)
        | notFound => exact Or.inr (Or.inr (Or.inl rfl))
        | notReversible original horiginal htype =>
          have hkey := hdb.keyed _ _ horiginal
          exact absurd (congrArg SourceTriple.ledgerType hkey) htype
        | unattributed original horiginal htype hnone =>
          have hranked := hdb.ranked _ _ horiginal htype
          exact absurd hnone (original.ranking_effective_required hranked)
      · cases he
        obtain ⟨hreversal, hid⟩ := hsource original horiginal
        rw [hreversal] at hwinner
        rw [hid]
        exact Or.inr (Or.inr (Or.inr ⟨winner, hwinner, rfl⟩))
      · cases he

/-- A reward of 50 points for claim 1 of user 7, and two reversals by administrator 9. -/
def reversedTwice : List Call :=
  [.grant 1 7 50 (some 0), .reverse ⟨9, .admin⟩ (claimReward 1) (some ['x']),
    .reverse ⟨9, .admin⟩ (claimReward 1) (some ['x'])]

end CampusQuest.Points
