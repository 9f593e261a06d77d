import CampusQuest.RankingPeriods
import CampusQuest.RankingRepository
import Mathlib.Data.List.Sort

/-!
The boards in Redis and the two ways of writing them. An update recomputes the scores of
one user for the periods of one instant; a rebuild derives the periods of the whole ledger,
rewrites their boards and deletes what is left of others. Both give the same boards exactly
when the range of every period holds the users whose entries are bucketed to it.
-/

namespace CampusQuest.Rankings

open WallClock
open Points (PointsLedger)

/-- A key under `ranking:`, by what its text spells: a period, or under the daily and
monthly prefixes anything else. -/
inductive RedisKey
  | board (b : Board)
  | debris (text : String)
  deriving DecidableEq

inductive Member
  | user (u : UserId)
  | other (text : String)
  deriving DecidableEq

/-- The sorted sets, member by member. A key exists as long as it has a member. -/
abbrev Redis := RedisKey → Member → Option ℤ

def Redis.empty : Redis := fun _ _ => none

def Redis.zadd (redis : Redis) (key : RedisKey) (scores : List (Member × ℤ)) : Redis :=
  fun k m => if k = key then (scores.lookup m).or (redis k m) else redis k m

def Redis.delete (redis : Redis) (keys : List RedisKey) : Redis :=
  fun k m => if k ∈ keys then none else redis k m

def Board.userScore (zone : Zone) (ledger : List PointsLedger) (b : Board) (user : UserId) : ℤ :=
  Rankings.userScore ledger user (b.startsAt zone) (b.endsAt zone)

def Board.rangeScores (zone : Zone) (ledger : List PointsLedger) (b : Board) : List (Member × ℤ) :=
  (Rankings.rangeScores ledger (b.startsAt zone) (b.endsAt zone)).map fun row => (.user row.1, row.2)

def Board.Ranked (zone : Zone) (ledger : List PointsLedger) (b : Board) (user : UserId) : Prop :=
  Rankings.Ranked ledger user (b.startsAt zone) (b.endsAt zone)

def zaddScore (user : UserId) (redis : Redis) (score : Board × ℤ) : Redis :=
  redis.zadd (.board score.1) [(.user user, score.2)]

/-- All scores are read before the first is written. -/
def applyRankingUpdate (zone : Zone) (ledger : List PointsLedger) (redis : Redis) (user : UserId)
    (effectiveAt : Instant) : Redis :=
  let scores := (affectedBoards zone effectiveAt).map fun b => (b, b.userScore zone ledger user)
  scores.foldl (zaddScore user) redis

def rebuildTargets (zone : Zone) (ledger : List PointsLedger) : List Board :=
  let instants := distinctEffectiveAt ledger
  ((instants.map (businessDay zone)).dedup.insertionSort (· ≤ ·)).map .daily ++
    ((instants.map (businessMonth zone)).dedup.insertionSort (· ≤ ·)).map .monthly ++ [.all]

/-- The pipeline of one key: deleted, and written again if there is a score. -/
def rewriteBoard (redis : Redis) (b : Board) (scores : List (Member × ℤ)) : Redis :=
  let emptied := redis.delete [.board b]
  if scores.isEmpty then emptied else emptied.zadd (.board b) scores

/-- The keys that the two scan patterns find. -/
def RedisKey.scanned : RedisKey → Bool
  | .board .all => false
  | .board (.daily _) | .board (.monthly _) | .debris _ => true

/-- `_delete_unbacked_keys`, with every key of the patterns that exists found by the scan. -/
def deleteUnbackedKeys (redis : Redis) (rebuilt : List Board) : Redis :=
  fun k m => if k.scanned = true ∧ k ∉ rebuilt.map .board then none else redis k m

def rebuildAll (zone : Zone) (ledger : List PointsLedger) (redis : Redis) : Redis :=
  let targets := rebuildTargets zone ledger
  deleteUnbackedKeys
    (targets.foldl (fun redis b => rewriteBoard redis b (b.rangeScores zone ledger)) redis) targets

def applyEntry (zone : Zone) (ledger : List PointsLedger) (redis : Redis) (e : PointsLedger) :
    Redis :=
  match e.rankingEffectiveAt with
  | some effectiveAt => applyRankingUpdate zone ledger redis e.userId effectiveAt
  | none => redis

def applyUpdates (zone : Zone) (ledger : List PointsLedger) (redis : Redis)
    (entries : List PointsLedger) : Redis :=
  entries.foldl (applyEntry zone ledger) redis

variable {zone : Zone} {ledger : List PointsLedger} {redis : Redis} {user : UserId} {b : Board}

structure RankingEntry (ledger : List PointsLedger) (e : PointsLedger) (instant : Instant) :
    Prop where
  mem : e ∈ ledger
  ranking : e.affectsRanking = true
  effective : e.rankingEffectiveAt = some instant

theorem ranked_iff : b.Ranked zone ledger user ↔
    ∃ e instant, RankingEntry ledger e instant ∧ e.userId = user ∧ b.Contains zone instant := by
  constructor
  · rintro ⟨e, he, hname, hrow⟩
    have hranking : e.affectsRanking = true := by
      unfold rangeFilters at hrow
      rw [Bool.and_eq_true, Bool.and_eq_true] at hrow
      exact hrow.1.1
    obtain ⟨instant, hinstant⟩ :=
      Option.ne_none_iff_exists'.mp (e.ranking_effective_required hranking)
    exact ⟨e, instant, ⟨he, hranking, hinstant⟩, hname, ((rangeFilters_iff hinstant).mp hrow).2⟩
  · rintro ⟨e, instant, hentry, hname, hcontains⟩
    exact ⟨e, hentry.mem, hname,
      (rangeFilters_iff hentry.effective).mpr ⟨hentry.ranking, hcontains⟩⟩

theorem lookup_eq_some_of_mem {α β : Type*} [BEq α] [LawfulBEq α] {l : List (α × β)} {a : α} {v : β}
    (hmem : (a, v) ∈ l) (hsame : ∀ v', (a, v') ∈ l → v' = v) : l.lookup a = some v := by
  induction l with
  | nil => cases hmem
  | cons head rest ih =>
    obtain ⟨a', v'⟩ := head
    rw [List.lookup_cons]
    by_cases ha : a = a'
    · subst ha
      rw [BEq.rfl, hsame v' List.mem_cons_self]
    · rw [beq_false_of_ne ha]
      rcases List.mem_cons.mp hmem with heq | hrest
      · exact absurd (Prod.mk.inj heq).1 ha
      · exact ih hrest fun v' hv' => hsame v' (List.mem_cons_of_mem _ hv')

theorem mem_of_lookup_eq_some {α β : Type*} [BEq α] [LawfulBEq α] {l : List (α × β)} {a : α} {v : β}
    (h : l.lookup a = some v) : (a, v) ∈ l := by
  induction l with
  | nil => cases h
  | cons head rest ih =>
    obtain ⟨a', v'⟩ := head
    rw [List.lookup_cons] at h
    by_cases ha : a = a'
    · subst ha
      rw [BEq.rfl] at h
      cases h
      exact List.mem_cons_self
    · rw [beq_false_of_ne ha] at h
      exact List.mem_cons_of_mem _ (ih h)

theorem lookup_rangeScores_iff {score : ℤ} :
    (b.rangeScores zone ledger).lookup (.user user) = some score ↔
      b.Ranked zone ledger user ∧ score = b.userScore zone ledger user := by
  have hmem : ∀ score, (Member.user user, score) ∈ b.rangeScores zone ledger ↔
      b.Ranked zone ledger user ∧ score = b.userScore zone ledger user := by
    intro score
    unfold Board.rangeScores
    rw [List.mem_map]
    constructor
    · rintro ⟨⟨u, s⟩, hrow, heq⟩
      obtain ⟨hu, rfl⟩ := Prod.mk.inj heq
      cases hu
      exact mem_rangeScores.mp hrow
    · intro h
      exact ⟨(user, score), mem_rangeScores.mpr h, rfl⟩
  constructor
  · intro h
    exact (hmem score).mp (mem_of_lookup_eq_some h)
  · intro h
    refine lookup_eq_some_of_mem ((hmem score).mpr h) fun score' hscore' => ?_
    rw [((hmem score').mp hscore').2, h.2]

theorem lookup_rangeScores_other {text : String} :
    (b.rangeScores zone ledger).lookup (.other text) = none := by
  cases h : (b.rangeScores zone ledger).lookup (.other text) with
  | none => rfl
  | some score =>
    obtain ⟨row, _, heq⟩ := List.mem_map.mp (mem_of_lookup_eq_some h)
    cases (Prod.mk.inj heq).1

theorem rewriteBoard_apply {scores : List (Member × ℤ)} (k : RedisKey) (m : Member) :
    rewriteBoard redis b scores k m = if k = .board b then scores.lookup m else redis k m := by
  unfold rewriteBoard
  by_cases hk : k = .board b
  · cases scores with
    | nil => simp [Redis.delete, hk]
    | cons head rest => simp [Redis.zadd, Redis.delete, hk]
  · cases scores with
    | nil => simp [Redis.delete, hk]
    | cons head rest => simp [Redis.zadd, Redis.delete, hk]

theorem foldl_rewriteBoard_apply (targets : List Board) (k : RedisKey) (m : Member) :
    targets.foldl (fun redis b => rewriteBoard redis b (b.rangeScores zone ledger)) redis k m =
      match k with
      | .board b => if b ∈ targets then (b.rangeScores zone ledger).lookup m else redis k m
      | .debris _ => redis k m := by
  induction targets generalizing redis with
  | nil => cases k <;> rfl
  | cons b' rest ih =>
    rw [List.foldl_cons, ih]
    cases k with
    | debris text => simp [rewriteBoard_apply]
    | board b =>
      simp only [rewriteBoard_apply, RedisKey.board.injEq, List.mem_cons]
      by_cases hrest : b ∈ rest
      · simp [hrest]
      · by_cases hb : b = b'
        · simp [hb]
        · simp [hrest, hb]

theorem mem_rebuildTargets : b ∈ rebuildTargets zone ledger ↔
    b = .all ∨ ∃ e instant, RankingEntry ledger e instant ∧ b ∈ affectedBoards zone instant := by
  have hinstant : ∀ instant, instant ∈ distinctEffectiveAt ledger ↔
      ∃ e, RankingEntry ledger e instant := by
    intro instant
    rw [mem_distinctEffectiveAt]
    constructor
    · rintro ⟨e, he, hranking, heffective⟩
      exact ⟨e, he, hranking, heffective⟩
    · rintro ⟨e, h⟩
      exact ⟨e, h.mem, h.ranking, h.effective⟩
  unfold rebuildTargets
  simp only [List.mem_append, List.mem_map, List.mem_insertionSort, List.mem_dedup, hinstant,
    affectedBoards, List.mem_cons, List.not_mem_nil, or_false]
  constructor
  · rintro ((⟨_, ⟨instant, ⟨e, he⟩, rfl⟩, rfl⟩ | ⟨_, ⟨instant, ⟨e, he⟩, rfl⟩, rfl⟩) | rfl)
    · exact Or.inr ⟨e, instant, he, Or.inl rfl⟩
    · exact Or.inr ⟨e, instant, he, Or.inr (Or.inl rfl)⟩
    · exact Or.inl rfl
  · rintro (rfl | ⟨e, instant, he, rfl | rfl | rfl⟩)
    · exact Or.inr rfl
    · exact Or.inl (Or.inl ⟨_, ⟨instant, ⟨e, he⟩, rfl⟩, rfl⟩)
    · exact Or.inl (Or.inr ⟨_, ⟨instant, ⟨e, he⟩, rfl⟩, rfl⟩)
    · exact Or.inr rfl

/-- What Redis held before a rebuild does not matter. -/
theorem rebuildAll_apply (k : RedisKey) (m : Member) : rebuildAll zone ledger redis k m =
    match k with
    | .board b => if b ∈ rebuildTargets zone ledger then (b.rangeScores zone ledger).lookup m else none
    | .debris _ => none := by
  unfold rebuildAll deleteUnbackedKeys
  simp only [foldl_rewriteBoard_apply]
  cases k with
  | debris text => simp [RedisKey.scanned]
  | board b =>
    by_cases hb : b ∈ rebuildTargets zone ledger
    · simp [hb]
    · have hall : b ≠ .all := by
        rintro rfl
        exact hb (mem_rebuildTargets.mpr (Or.inl rfl))
      have hscanned : (RedisKey.board b).scanned = true := by
        cases b with
        | daily day => rfl
        | monthly month => rfl
        | all => exact absurd rfl hall
      simp [hb, hscanned]

theorem foldl_zaddScore_apply (boards : List Board) (score : Board → ℤ) (k : RedisKey) (m : Member) :
    (boards.map fun b => (b, score b)).foldl (zaddScore user) redis k m =
      match k with
      | .board b => if b ∈ boards ∧ m = .user user then some (score b) else redis k m
      | .debris _ => redis k m := by
  induction boards generalizing redis with
  | nil => cases k <;> simp
  | cons b' rest ih =>
    rw [List.map_cons, List.foldl_cons, ih]
    cases k with
    | debris text => simp [zaddScore, Redis.zadd]
    | board b =>
      by_cases hm : m = .user user
      · by_cases hrest : b ∈ rest
        · simp [hrest, hm]
        · by_cases hb : b = b'
          · simp [zaddScore, Redis.zadd, hm, hb]
          · simp [zaddScore, Redis.zadd, hm, hb, hrest]
      · have hlookup : [(Member.user user, score b')].lookup m = none := by
          rw [List.lookup_cons, beq_false_of_ne hm]
          rfl
        simp [zaddScore, Redis.zadd, hm, hlookup]

theorem applyRankingUpdate_apply (effectiveAt : Instant) (k : RedisKey) (m : Member) :
    applyRankingUpdate zone ledger redis user effectiveAt k m =
      match k with
      | .board b =>
        if b ∈ affectedBoards zone effectiveAt ∧ m = .user user then
          some (b.userScore zone ledger user) else redis k m
      | .debris _ => redis k m :=
  foldl_zaddScore_apply (affectedBoards zone effectiveAt) (fun b => b.userScore zone ledger user) k m

def Touched (zone : Zone) (entries : List PointsLedger) (b : Board) (user : UserId) : Prop :=
  ∃ e ∈ entries, e.userId = user ∧
    ∃ instant, e.rankingEffectiveAt = some instant ∧ b ∈ affectedBoards zone instant

theorem touched_cons {e : PointsLedger} {rest : List PointsLedger} :
    Touched zone (e :: rest) b user ↔ (e.userId = user ∧
      ∃ instant, e.rankingEffectiveAt = some instant ∧ b ∈ affectedBoards zone instant) ∨
      Touched zone rest b user := by
  simp only [Touched, List.mem_cons, exists_eq_or_imp]

theorem applyEntry_touched {e : PointsLedger} {instant : Instant}
    (heffective : e.rankingEffectiveAt = some instant) (hb : b ∈ affectedBoards zone instant) :
    applyEntry zone ledger redis e (.board b) (.user e.userId) =
      some (b.userScore zone ledger e.userId) := by
  unfold applyEntry
  simp only [heffective, applyRankingUpdate_apply, hb, and_self, if_true]

theorem applyEntry_untouched {e : PointsLedger} (k : RedisKey) (m : Member)
    (h : ∀ b instant, k = .board b → m = .user e.userId → e.rankingEffectiveAt = some instant →
      b ∉ affectedBoards zone instant) : applyEntry zone ledger redis e k m = redis k m := by
  unfold applyEntry
  cases heffective : e.rankingEffectiveAt with
  | none => rfl
  | some instant =>
    simp only [applyRankingUpdate_apply]
    cases k with
    | debris text => rfl
    | board b => exact if_neg fun hhere => h b instant rfl hhere.2 heffective hhere.1

/-- A score that is right stays right under further updates. -/
theorem applyUpdates_keep (entries : List PointsLedger)
    (h : redis (.board b) (.user user) = some (b.userScore zone ledger user)) :
    applyUpdates zone ledger redis entries (.board b) (.user user) =
      some (b.userScore zone ledger user) := by
  induction entries generalizing redis with
  | nil => exact h
  | cons e rest ih =>
    refine ih ?_
    by_cases htouched : e.userId = user ∧ ∃ instant, e.rankingEffectiveAt = some instant ∧
        b ∈ affectedBoards zone instant
    · obtain ⟨rfl, instant, heffective, hb⟩ := htouched
      exact applyEntry_touched heffective hb
    · refine (applyEntry_untouched _ _ fun b' instant hk hm heffective hb => htouched ?_).trans h
      cases hk
      cases hm
      exact ⟨rfl, instant, heffective, hb⟩

/-- However often and in whatever order, the updates leave the score of each touched board. -/
theorem applyUpdates_touched (entries : List PointsLedger) (h : Touched zone entries b user) :
    applyUpdates zone ledger redis entries (.board b) (.user user) =
      some (b.userScore zone ledger user) := by
  induction entries generalizing redis with
  | nil =>
    obtain ⟨e, he, _⟩ := h
    cases he
  | cons e rest ih =>
    rcases touched_cons.mp h with ⟨rfl, instant, heffective, hb⟩ | hrest
    · exact applyUpdates_keep rest (applyEntry_touched heffective hb)
    · exact ih hrest

theorem applyUpdates_untouched (entries : List PointsLedger) (k : RedisKey) (m : Member)
    (h : ∀ b user, k = .board b → m = .user user → ¬ Touched zone entries b user) :
    applyUpdates zone ledger redis entries k m = redis k m := by
  induction entries generalizing redis with
  | nil => rfl
  | cons e rest ih =>
    refine (ih fun b user hk hm hrest => h b user hk hm (touched_cons.mpr (Or.inr hrest))).trans ?_
    refine applyEntry_untouched k m fun b instant hk hm heffective hb => ?_
    exact h b e.userId hk hm (touched_cons.mpr (Or.inl ⟨rfl, instant, heffective, hb⟩))

/-- For every period that the ledger derives, the users whose entries are bucketed to it are
those with an entry in its range. -/
def Bucketed (zone : Zone) (ledger : List PointsLedger) : Prop :=
  ∀ b user, (∃ e instant, RankingEntry ledger e instant ∧ b ∈ affectedBoards zone instant) →
    ((∃ e instant, RankingEntry ledger e instant ∧ e.userId = user ∧
      b ∈ affectedBoards zone instant) ↔
      ∃ e instant, RankingEntry ledger e instant ∧ e.userId = user ∧ b.Contains zone instant)

theorem touched_iff {entries : List PointsLedger}
    (hentries : ∀ e, e ∈ entries ↔ e ∈ ledger ∧ e.affectsRanking = true) :
    Touched zone entries b user ↔ ∃ e instant, RankingEntry ledger e instant ∧ e.userId = user ∧
      b ∈ affectedBoards zone instant := by
  constructor
  · rintro ⟨e, he, hname, instant, heffective, hb⟩
    obtain ⟨hmem, hranking⟩ := (hentries e).mp he
    exact ⟨e, instant, ⟨hmem, hranking, heffective⟩, hname, hb⟩
  · rintro ⟨e, instant, hentry, hname, hb⟩
    exact ⟨e, (hentries e).mpr ⟨hentry.mem, hentry.ranking⟩, hname, instant, hentry.effective, hb⟩

/-- Whatever Redis held, a rebuild gives the boards of the updates of all ranking entries,
in any order and with any repetition, exactly for a ledger whose periods are bucketed as
they are bounded. -/
theorem rebuildAll_eq_updates_iff (zone : Zone) (ledger : List PointsLedger) (redis : Redis)
    {entries : List PointsLedger}
    (hentries : ∀ e, e ∈ entries ↔ e ∈ ledger ∧ e.affectsRanking = true) :
    rebuildAll zone ledger redis = applyUpdates zone ledger .empty entries ↔
      Bucketed zone ledger := by
  have hnone : ∀ b user, ¬ Touched zone entries b user →
      applyUpdates zone ledger .empty entries (.board b) (.user user) = none := by
    intro b user huntouched
    refine applyUpdates_untouched entries _ _ fun b' user' hb hm => ?_
    cases hb
    cases hm
    exact huntouched
  constructor
  · intro heq b user hderived
    have hb : b ∈ rebuildTargets zone ledger := mem_rebuildTargets.mpr (Or.inr hderived)
    have hcell := congrFun (congrFun heq (.board b)) (.user user)
    simp only [rebuildAll_apply, if_pos hb] at hcell
    rw [← touched_iff hentries, ← ranked_iff]
    constructor
    · intro htouched
      rw [applyUpdates_touched entries htouched] at hcell
      exact (lookup_rangeScores_iff.mp hcell).1
    · intro hranked
      rw [lookup_rangeScores_iff.mpr ⟨hranked, rfl⟩] at hcell
      by_contra huntouched
      rw [hnone b user huntouched] at hcell
      cases hcell
  · intro hbucketed
    funext k m
    cases k with
    | debris text =>
      rw [rebuildAll_apply, applyUpdates_untouched entries _ _ fun _ _ hk => by cases hk]
      rfl
    | board b =>
      cases m with
      | other text =>
        rw [applyUpdates_untouched entries _ _ fun _ _ _ hm => by cases hm]
        simp only [rebuildAll_apply, lookup_rangeScores_other, ite_self]
        rfl
      | user user =>
        simp only [rebuildAll_apply]
        by_cases hb : b ∈ rebuildTargets zone ledger
        · rw [if_pos hb]
          have hsame : Touched zone entries b user ↔ b.Ranked zone ledger user := by
            rw [touched_iff hentries, ranked_iff]
            rcases mem_rebuildTargets.mp hb with rfl | hderived
            · simp [affectedBoards, Board.Contains, Board.startsAt, Board.endsAt]
            · exact hbucketed b user hderived
          by_cases htouched : Touched zone entries b user
          · rw [applyUpdates_touched entries htouched]
            exact lookup_rangeScores_iff.mpr ⟨hsame.mp htouched, rfl⟩
          · rw [hnone b user htouched]
            cases hlookup : (b.rangeScores zone ledger).lookup (.user user) with
            | none => rfl
            | some score => exact absurd (hsame.mpr (lookup_rangeScores_iff.mp hlookup).1) htouched
        · rw [if_neg hb]
          refine (hnone b user fun htouched => hb ?_).symm
          obtain ⟨e, instant, hentry, _, haffected⟩ := (touched_iff hentries).mp htouched
          exact mem_rebuildTargets.mpr (Or.inr ⟨e, instant, hentry, haffected⟩)

/-- The clock of St. John's in the autumn of 2010 went back at one minute past midnight. -/
def stJohns : Zone where
  offset := -9000000000
  changes := [⟨1289097060000000, -12600000000⟩]
  ordered := List.pairwise_singleton _ _

def rewardEntry (user : UserId) (claim : ℕ) (amount : ℤ) (h : amount ≠ 0) (effectiveAt : Instant) :
    PointsLedger where
  userId := user
  ledgerType := .assignmentReward
  amount := amount
  sourceType := .assignmentClaim
  sourceId := claim
  affectsBalance := true
  affectsRanking := true
  rankingEffectiveAt := some effectiveAt
  reversalOfId := none
  operatorId := none
  reason := none
  amount_ne_zero := h
  ranking_effective_required _ hnone := nomatch hnone
  admin_reason_required htype := nomatch htype

/-- In the repeated hour the local date is 6 November again, but the midnight of the 7th has
passed: the update writes a zero where the rebuild finds no row. -/
theorem rebuildAll_ne_updates :
    rebuildAll stJohns [rewardEntry 1 1 10 (by decide) 1289098800000000] .empty ≠
      applyUpdates stJohns [rewardEntry 1 1 10 (by decide) 1289098800000000] .empty
        [rewardEntry 1 1 10 (by decide) 1289098800000000] := by
  intro h
  have hcell := congrFun (congrFun h (.board (.daily 14919))) (.user 1)
  revert hcell
  decide

/-- In Shanghai the clock has not changed since the ledger began. -/
def shanghai : Zone := ⟨28800000000, [], .nil⟩

theorem rebuildAll_eq_updates_shanghai :
    rebuildAll shanghai [rewardEntry 1 1 10 (by decide) 1289098800000000] .empty =
        applyUpdates shanghai [rewardEntry 1 1 10 (by decide) 1289098800000000] .empty
          [rewardEntry 1 1 10 (by decide) 1289098800000000] ↔
      Bucketed shanghai [rewardEntry 1 1 10 (by decide) 1289098800000000] :=
  rebuildAll_eq_updates_iff _ _ _ fun e => by
    constructor
    · intro he
      rw [List.mem_singleton.mp he]
      exact ⟨List.mem_singleton_self _, rfl⟩
    · exact And.left

end CampusQuest.Rankings
