import CampusQuest.Guards
import CampusQuest.RankingProjection
import CampusQuest.SortedSets
import Mathlib.Data.List.Sort

/-!
The reads of the rankings. The boards are sorted sets with a member for each user, and every entry
of a page carries its position on the whole board. The growth page takes the rank of the current
month from the same board, and the best rank of all months from the ledger.
-/

namespace CampusQuest.RankingReads

open Guards Rankings SortedSets WallClock
open Points (PointsLedger)

/-- One board; the tie order is that of the member texts. -/
abbrev Leaderboard (tie : UserId → UserId → Prop) := SortedSet UserId ℤ tie

structure DisplayProfile where
  nickname : Text
  displayHonorTitle : Option Text
  deriving DecidableEq

abbrev UserDirectory := UserId → Option DisplayProfile

structure RankingEntry where
  nickname : Text
  displayHonor : Option Text
  score : ℤ
  rank : ℤ
  deriving DecidableEq

inductive ArgumentError
  | limit (got : ℤ)
  | radius (got : ℤ)
  deriving DecidableEq

def ArgumentError.message : ArgumentError → String
  | .limit got => s!"limit must be >= 1, got {got}"
  | .radius got => s!"radius must be >= 0, got {got}"

section Service

variable {tie : UserId → UserId → Prop} (directory : UserDirectory) (board : Leaderboard tie)

/-- `_entry_for`: a member without a profile is skipped. -/
def entryFor (member : UserId) (score rank : ℤ) : Option RankingEntry :=
  (directory member).map fun profile =>
    ⟨profile.nickname, profile.displayHonorTitle, score, rank⟩

def entries (rows : List (UserId × ℤ)) (start : ℤ) : List RankingEntry :=
  rows.zipIdx.filterMap fun (row, offset) => entryFor directory row.1 row.2 (start + offset + 1)

def top (limit : ℤ) : Except ArgumentError (List RankingEntry) := do
  ensure (1 ≤ limit) (.limit limit)
  return entries directory (board.zrevrange 0 (limit - 1)) 0

def aroundMe (user : UserId) (radius : ℤ) : Except ArgumentError (List RankingEntry) := do
  ensure (0 ≤ radius) (.radius radius)
  match board.zrevrank user with
  | none => return []
  | some rank =>
    let start := max 0 (rank - radius)
    return entries directory (board.zrevrange start (rank + radius)) start

def myStanding (user : UserId) : Option ℤ × Option ℤ :=
  ((board.zrevrank user).map fun rank : ℕ => (rank : ℤ) + 1, board.zscore user)

end Service

section Growth

variable {tie : UserId → UserId → Prop} (zone : Zone) (ledger : List PointsLedger)
  (boards : Board → Leaderboard tie) (user : UserId)

def monthRank (month : ℤ) : Option ℤ :=
  ((boards (.monthly month)).zrevrank user).map fun rank : ℕ => (rank : ℤ) + 1

/-- The position in one month by the ledger. Equal scores share a position here. -/
def monthPosition (month : ℤ) : Option ℤ :=
  let bounds := monthBounds zone month
  let scores := rangeScores ledger (some bounds.1) (some bounds.2)
  (scores.lookup user).map fun mine => ((scores.filter fun row => mine < row.2).length : ℤ) + 1

def betterMonth (best : Option ℤ) (month : ℤ) : Option ℤ :=
  match monthPosition zone ledger user month with
  | none => best
  | some rank => if best.all (rank < ·) then some rank else best

/-- `_best_month_rank`, over the months that the instants of the ledger are bucketed to. -/
def bestMonthRank : Option ℤ :=
  let months := ((distinctEffectiveAt ledger).map (businessMonth zone)).dedup.insertionSort (· ≤ ·)
  months.foldl (betterMonth zone ledger user) none

structure GrowthProfile where
  monthPoints : ℤ
  monthRank : Option ℤ
  totalEarnedPoints : ℤ
  bestMonthRank : Option ℤ

def growthProfile (now : Instant) : GrowthProfile :=
  let month := businessMonth zone now
  let bounds := monthBounds zone month
  { monthPoints := userScore ledger user (some bounds.1) (some bounds.2)
    monthRank := monthRank boards user month
    totalEarnedPoints := userScore ledger user none none
    bestMonthRank := bestMonthRank zone ledger user }

def Projected : Prop :=
  ∀ b user score, (user, score) ∈ (boards b).rows ↔
    (user, score) ∈ rangeScores ledger (b.startsAt zone) (b.endsAt zone)

end Growth

/-! ### Pages of one board -/

section Pages

variable {tie : UserId → UserId → Prop} {directory : UserDirectory} {board : Leaderboard tie}
  {user : UserId} {score : ℤ} {start : ℕ} {page : List RankingEntry} {entry : RankingEntry}

def entryAt (directory : UserDirectory) (row : (UserId × ℤ) × ℕ) : Option RankingEntry :=
  entryFor directory row.1.1 row.1.2 (row.2 + 1)

theorem entryAt_rank {row : (UserId × ℤ) × ℕ} (h : entryAt directory row = some entry) :
    entry.rank = row.2 + 1 := by
  obtain ⟨profile, _, rfl⟩ := Option.map_eq_some_iff.mp h
  rfl

/-- Numbering on from the first row is numbering by the positions. -/
theorem entries_eq (rows : List (UserId × ℤ)) (start : ℕ) :
    entries directory rows start = (rows.zipIdx start).filterMap (entryAt directory) := by
  rw [List.zipIdx_eq_map_add, List.filterMap_map]
  unfold entries
  refine List.filterMap_congr fun row _ => ?_
  simp only [Function.comp_apply, entryAt, Nat.cast_add]

def wholeBoard (directory : UserDirectory) (board : Leaderboard tie) : List RankingEntry :=
  board.rows.zipIdx.filterMap (entryAt directory)

/-- A page shows the entries of the whole board that stand in its window. -/
theorem entries_zrevrange {start stop : ℕ} :
    entries directory (board.zrevrange start stop) start =
      (wholeBoard directory board).filter fun e : RankingEntry =>
        (start : ℤ) < e.rank ∧ e.rank ≤ (stop : ℤ) + 1 := by
  unfold wholeBoard
  rw [entries_eq, SortedSet.zrevrange_zipIdx start rfl, List.filterMap_filter,
    List.filter_filterMap]
  refine List.filterMap_congr fun row _ => ?_
  cases hentry : entryAt directory row with
  | none => simp
  | some entry =>
    have hrank := entryAt_rank hentry
    rw [Option.filter_some]
    refine if_congr ?_ rfl rfl
    rw [decide_eq_true_eq, decide_eq_true_eq, hrank]
    omega

theorem mem_wholeBoard_rank (h : entry ∈ wholeBoard directory board) :
    1 ≤ entry.rank ∧ entry.rank ≤ board.rows.length := by
  obtain ⟨row, hrow, hentry⟩ := List.mem_filterMap.mp h
  have hlt := List.snd_lt_of_mem_zipIdx hrow
  rw [entryAt_rank hentry]
  omega

theorem top_eq {limit : ℤ} (h : 1 ≤ limit) : top directory board limit =
    .ok ((wholeBoard directory board).filter fun e => e.rank ≤ limit) := by
  obtain ⟨stop, hstop⟩ := Int.eq_ofNat_of_zero_le (by omega : 0 ≤ limit - 1)
  unfold top
  rw [ensure_true_bind h, hstop]
  change Except.ok (entries directory (board.zrevrange (0 : ℕ) stop) (0 : ℕ)) = _
  rw [entries_zrevrange]
  refine congrArg _ (List.filter_congr fun e he => ?_)
  have hrank := mem_wholeBoard_rank he
  rw [decide_eq_decide]
  omega

/-- A limit past the last member shows the whole board. -/
theorem top_whole {limit : ℤ} (h : 1 ≤ limit) (hlimit : board.rows.length ≤ limit) :
    top directory board limit = .ok (wholeBoard directory board) := by
  rw [top_eq h]
  refine congrArg _ (List.filter_eq_self.mpr fun e he => decide_eq_true ?_)
  exact (mem_wholeBoard_rank he).2.trans hlimit

theorem aroundMe_eq {radius : ℤ} (h : 0 ≤ radius) : aroundMe directory board user radius =
    .ok ((wholeBoard directory board).filter fun e =>
      (myStanding board user).1.any fun rank => |e.rank - rank| ≤ radius) := by
  unfold aroundMe myStanding
  rw [ensure_true_bind h]
  cases hrank : board.zrevrank user with
  | none =>
    rw [Option.map_none]
    exact congrArg Except.ok (List.filter_eq_nil_iff.mpr fun _ _ => Bool.false_ne_true).symm
  | some rank =>
    obtain ⟨start, hstart⟩ := Int.eq_ofNat_of_zero_le (le_max_left 0 ((rank : ℤ) - radius))
    obtain ⟨stop, hstop⟩ := Int.eq_ofNat_of_zero_le (by omega : 0 ≤ (rank : ℤ) + radius)
    change Except.ok (entries directory (board.zrevrange (max 0 ((rank : ℤ) - radius))
      (rank + radius)) (max 0 ((rank : ℤ) - radius))) = _
    rw [hstart, hstop]
    rw [entries_zrevrange]
    refine congrArg _ (List.filter_congr fun e he => ?_)
    have hentry := mem_wholeBoard_rank he
    rw [Option.map_some, Option.any_some, decide_eq_decide, abs_le]
    omega

/-- The standing of a member is that of its row, and its entry on the whole board has that rank. -/
theorem myStanding_eq {rank : ℤ} (h : (myStanding board user).1 = some rank) :
    ∃ score, (myStanding board user).2 = some score ∧ (user, score) ∈ board.rows ∧
      ∀ profile, directory user = some profile →
        ⟨profile.nickname, profile.displayHonorTitle, score, rank⟩ ∈
          wholeBoard directory board := by
  obtain ⟨i, hi, rfl⟩ := Option.map_eq_some_iff.mp h
  obtain ⟨score, hrow⟩ := SortedSet.zrevrank_eq_some.mp hi
  have hmem := List.mem_of_getElem? hrow
  refine ⟨score, SortedSet.zscore_eq_some.mpr hmem, hmem, fun profile hprofile => ?_⟩
  refine List.mem_filterMap.mpr ⟨((user, score), i), List.mk_mem_zipIdx_iff_getElem?.mpr hrow, ?_⟩
  unfold entryAt entryFor
  rw [hprofile]
  rfl

theorem myStanding_isSome (board : Leaderboard tie) (user : UserId) :
    (myStanding board user).1.isSome = (myStanding board user).2.isSome := by
  unfold myStanding
  rw [Option.isSome_map]
  exact SortedSet.zrevrank_isSome

end Pages

/-! ### The best month -/

section Months

variable {tie : UserId → UserId → Prop} {zone : Zone} {ledger : List PointsLedger}
  {boards : Board → Leaderboard tie} {user : UserId} {startsAt endsAt : Option Instant}
  {best : Option ℤ} {month : ℤ} {months : List ℤ}

theorem rangeScores_nodup :
    ((rangeScores ledger startsAt endsAt).map Prod.fst).Nodup := by
  unfold rangeScores
  rw [List.map_map]
  change ((((ledger.filter (rangeFilters startsAt endsAt)).map (·.userId)).dedup).map id).Nodup
  rw [List.map_id]
  exact List.nodup_dedup _

theorem rangeScores_lookup {score : ℤ} :
    (rangeScores ledger startsAt endsAt).lookup user = some score ↔
      (user, score) ∈ rangeScores ledger startsAt endsAt := by
  refine ⟨mem_of_lookup_eq_some, fun hmem => lookup_eq_some_of_mem hmem fun score' hmem' => ?_⟩
  exact ((mem_rangeScores.mp hmem').2).trans (mem_rangeScores.mp hmem).2.symm

/-- What one month does to the best rank: nothing without a score, and otherwise the rank of the
month is reached. -/
theorem betterMonth_cases (zone : Zone) (ledger : List PointsLedger) (user : UserId)
    (best : Option ℤ) (month : ℤ) :
    (monthPosition zone ledger user month = none ∧ betterMonth zone ledger user best month = best) ∨
    ∃ rank, monthPosition zone ledger user month = some rank ∧
      ∃ b ≤ rank, betterMonth zone ledger user best month = some b ∧
        ∀ b', best = some b' → b ≤ b' := by
  unfold betterMonth
  cases hposition : monthPosition zone ledger user month with
  | none => exact .inl ⟨rfl, rfl⟩
  | some rank =>
    refine .inr ⟨rank, rfl, ?_⟩
    dsimp only
    split
    next hbetter =>
      refine ⟨rank, le_rfl, rfl, fun b' hb' => ?_⟩
      rw [hb', Option.all_some, decide_eq_true_eq] at hbetter
      exact hbetter.le
    next hworse =>
      cases best with
      | none => exact absurd rfl hworse
      | some b =>
        rw [Option.all_some, decide_eq_true_eq, not_lt] at hworse
        exact ⟨b, hworse, rfl, fun b' hb' => (Option.some.inj hb').le⟩

/-- The best rank is at least as good as that of every month, and as the one to begin with. -/
theorem foldl_betterMonth_le :
    (∀ b, best = some b → ∃ b' ≤ b, months.foldl (betterMonth zone ledger user) best = some b') ∧
    ∀ month ∈ months, ∀ rank, monthPosition zone ledger user month = some rank →
      ∃ b ≤ rank, months.foldl (betterMonth zone ledger user) best = some b := by
  induction months generalizing best with
  | nil => exact ⟨fun b hb => ⟨b, le_rfl, hb⟩, fun _ h => absurd h List.not_mem_nil⟩
  | cons first months ih =>
    rw [List.foldl_cons]
    obtain ⟨hnext, hmonths⟩ := @ih (betterMonth zone ledger user best first)
    have hfirst := betterMonth_cases zone ledger user best first
    refine ⟨fun b hb => ?_, fun month hmonth rank hrank => ?_⟩
    · rcases hfirst with ⟨_, hsame⟩ | ⟨_, _, b₁, _, hbetter, hle⟩
      · exact hnext b (hsame.trans hb)
      · obtain ⟨b', hb', hfold⟩ := hnext b₁ hbetter
        exact ⟨b', hb'.trans (hle b hb), hfold⟩
    · rcases List.mem_cons.mp hmonth with rfl | hlater
      · rcases hfirst with ⟨hnone, _⟩ | ⟨rank', hrank', b₁, hb₁, hbetter, _⟩
        · rw [hnone] at hrank
          cases hrank
        · obtain rfl := Option.some.inj (hrank'.symm.trans hrank)
          obtain ⟨b', hb', hfold⟩ := hnext b₁ hbetter
          exact ⟨b', hb'.trans hb₁, hfold⟩
      · exact hmonths month hlater rank hrank

theorem foldl_betterMonth_none
    (h : ∀ month ∈ months, monthPosition zone ledger user month = none) :
    months.foldl (betterMonth zone ledger user) best = best := by
  induction months with
  | nil => rfl
  | cons first months ih =>
    rw [List.foldl_cons]
    rcases betterMonth_cases zone ledger user best first with ⟨_, hsame⟩ | ⟨rank, hrank, _⟩
    · rw [hsame]
      exact ih fun month hmonth => h month (List.mem_cons_of_mem _ hmonth)
    · rw [h first List.mem_cons_self] at hrank
      cases hrank

theorem mem_months {month : ℤ} :
    month ∈ ((distinctEffectiveAt ledger).map (businessMonth zone)).dedup.insertionSort (· ≤ ·) ↔
      ∃ e ∈ ledger, e.affectsRanking = true ∧
        ∃ instant, e.rankingEffectiveAt = some instant ∧ businessMonth zone instant = month := by
  rw [List.mem_insertionSort, List.mem_dedup, List.mem_map]
  constructor
  · rintro ⟨instant, hinstant, hmonth⟩
    obtain ⟨e, he, hranking, heffective⟩ := mem_distinctEffectiveAt.mp hinstant
    exact ⟨e, he, hranking, instant, heffective, hmonth⟩
  · rintro ⟨e, he, hranking, instant, heffective, hmonth⟩
    exact ⟨instant, mem_distinctEffectiveAt.mpr ⟨e, he, hranking, heffective⟩, hmonth⟩

/-- On a board of the aggregates the rank of a month is no better than its position by score. -/
theorem monthPosition_le (h : Projected zone ledger boards) {rank : ℤ}
    (hrank : monthRank boards user month = some rank) :
    ∃ position ≤ rank, monthPosition zone ledger user month = some position := by
  obtain ⟨i, hi, rfl⟩ := Option.map_eq_some_iff.mp hrank
  obtain ⟨score, hrow⟩ := SortedSet.zrevrank_eq_some.mp hi
  have hscore := rangeScores_lookup.mpr ((h _ user score).mp (List.mem_of_getElem? hrow))
  have hperm : (rangeScores ledger (some (monthBounds zone month).1)
      (some (monthBounds zone month).2)).Perm (boards (.monthly month)).rows :=
    (List.perm_ext_iff_of_nodup (List.Nodup.of_map _ rangeScores_nodup)
      (List.Nodup.of_map _ (boards (.monthly month)).distinct)).mpr
        fun row => (h (.monthly month) row.1 row.2).symm
  refine ⟨_, ?_, by
    unfold monthPosition
    dsimp only
    exact Option.map_eq_some_iff.mpr ⟨score, hscore, rfl⟩⟩
  rw [(hperm.filter _).length_eq]
  have hhigher := SortedSet.higher_le hrow
  omega

end Months

end CampusQuest.RankingReads
