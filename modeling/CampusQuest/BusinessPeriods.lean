import CampusQuest.DayTiling
import CampusQuest.RankingPeriods
import CampusQuest.RankingRepository
import Mathlib.Algebra.BigOperators.Group.Finset.Piecewise
import Mathlib.Algebra.Order.BigOperators.Group.Finset
import Mathlib.Data.Int.Interval
import Mathlib.Order.Interval.Finset.Basic
import Mathlib.Order.Interval.Set.Disjoint

/-!
The windows of the abandon limit and the periods of the rankings as divisions of the time. A
business zone is less than a day ahead or behind. Its days divide the time exactly when no change
of its clock leads across a local midnight, and then the months are made of their days.
-/

namespace CampusQuest

open WallClock Calendar
open Lifecycle (dayLength localDate localMidnight NaturalDay businessDayWindow)

/-- A zone as the language admits it: `utcoffset` is strictly between minus and plus 24 hours. -/
structure ZoneInfo extends Zone where
  bounded : toZone.Bounded dayLength

def during (bounds : Instant × Instant) : Set Instant := Set.Ico bounds.1 bounds.2

theorem mem_during {bounds : Instant × Instant} {t : Instant} :
    t ∈ during bounds ↔ bounds.1 ≤ t ∧ t < bounds.2 := Iff.rfl

variable (zone : ZoneInfo)

theorem tiled_iff_uncrossed :
    zone.Tiled dayLength ↔ ∀ date, ¬ zone.Crossed (date * dayLength) :=
  Zone.tiled_iff (by decide) zone.bounded

namespace Lifecycle

/-- Every instant lies in its window, and two windows are the same or share no instant, exactly
when no change of the clock leads across a local midnight. -/
theorem businessDayWindow_tiles_iff :
    ((∀ t, t ∈ during (businessDayWindow zone.toZone t)) ∧
      ∀ t t', businessDayWindow zone.toZone t = businessDayWindow zone.toZone t' ∨
        Disjoint (during (businessDayWindow zone.toZone t))
          (during (businessDayWindow zone.toZone t'))) ↔
      ∀ date, ¬ zone.Crossed (date * dayLength) := by
  rw [← tiled_iff_uncrossed]
  constructor
  · rintro ⟨hwithin, hapart⟩
    refine ⟨hwithin, fun t t' s hs hs' => ?_⟩
    rcases hapart t t' with hsame | hdisjoint
    · change during (businessDayWindow zone.toZone t) = during (businessDayWindow zone.toZone t')
      rw [hsame]
    · exact (Set.disjoint_left.mp hdisjoint hs hs').elim
  · intro h
    refine ⟨h.within, fun t t' => ?_⟩
    by_cases hshared : Disjoint (during (businessDayWindow zone.toZone t))
        (during (businessDayWindow zone.toZone t'))
    · exact Or.inr hshared
    · obtain ⟨s, hs, hs'⟩ := Set.not_disjoint_iff.mp hshared
      have hnatural := naturalDay_of_uncrossed ((tiled_iff_uncrossed zone).mp h) s
      exact Or.inl ((hnatural.window_eq hs).trans (hnatural.window_eq hs').symm)

/-- St. John's in the autumn of 2006, when the clock went back from the first minute of October
29th into October 28th. -/
def autumn : ZoneInfo where
  offset := -9000000000
  changes := [⟨1162089060000000, -12600000000⟩]
  ordered := List.pairwise_singleton _ _
  bounded := ⟨by decide, by decide⟩

/-- Two minutes after that the clock shows October 28th, whose window has ended. -/
theorem businessDayWindow_left :
    ¬ ∀ zone : ZoneInfo, (∀ t, t ∈ during (businessDayWindow zone.toZone t)) ∧
      ∀ t t', businessDayWindow zone.toZone t = businessDayWindow zone.toZone t' ∨
        Disjoint (during (businessDayWindow zone.toZone t))
          (during (businessDayWindow zone.toZone t')) := by
  intro h
  have hwithin := (h autumn).1 1162089180000000
  revert hwithin
  rw [mem_during]
  decide

end Lifecycle

namespace Rankings

/-- The periods divide the time, and the months are made of their days. -/
structure Partitioned (zone : ZoneInfo) : Prop where
  inDay : ∀ t, t ∈ during (dayBounds zone.toZone (businessDay zone.toZone t))
  inMonth : ∀ t, t ∈ during (monthBounds zone.toZone (businessMonth zone.toZone t))
  daysApart : ∀ d d', d ≠ d' →
    Disjoint (during (dayBounds zone.toZone d)) (during (dayBounds zone.toZone d'))
  monthOfDays : ∀ month, during (monthBounds zone.toZone month) =
    ⋃ day ∈ Finset.Ico (firstDay month) (firstDay (month + 1)), during (dayBounds zone.toZone day)
  monthScore : ∀ ledger user month,
    userScore ledger user (some (monthBounds zone.toZone month).1)
        (some (monthBounds zone.toZone month).2) =
      ∑ day ∈ Finset.Ico (firstDay month) (firstDay (month + 1)),
        userScore ledger user (some (dayBounds zone.toZone day).1)
          (some (dayBounds zone.toZone day).2)

variable {zone}

theorem rangeFilters_during {bounds : Instant × Instant} {e : Points.PointsLedger} :
    rangeFilters (some bounds.1) (some bounds.2) e = true ↔
      e.affectsRanking = true ∧ ∃ t ∈ e.rankingEffectiveAt, t ∈ during bounds := by
  cases heffective : e.rankingEffectiveAt with
  | none => simp [rangeFilters, heffective]
  | some t => simp [rangeFilters, heffective, mem_during, and_assoc]

/-- A sum over days that cannot share an instant is the score of the time that they make up. -/
theorem userScore_sum {days : Finset ℤ} {bounds : Instant × Instant} {range : ℤ → Instant × Instant}
    (hmade : ∀ t, t ∈ during bounds ↔ ∃ d ∈ days, t ∈ during (range d))
    (hapart : ∀ d d', d ≠ d' → Disjoint (during (range d)) (during (range d')))
    (ledger : List Points.PointsLedger) (user : UserId) :
    userScore ledger user (some bounds.1) (some bounds.2) =
      ∑ d ∈ days, userScore ledger user (some (range d).1) (some (range d).2) := by
  induction ledger using List.reverseRecOn with
  | nil => exact (Finset.sum_eq_zero fun _ _ => rfl).symm
  | append_singleton ledger e ih =>
    rw [userScore_append, ih, Finset.sum_congr rfl fun d _ => userScore_append e,
      Finset.sum_add_distrib]
    refine congrArg _ ?_
    by_cases hcounted : e.userId = user ∧ rangeFilters (some bounds.1) (some bounds.2) e = true
    · -- The row lies in exactly one of the days.
      obtain ⟨huser, hrow⟩ := hcounted
      obtain ⟨haffects, t, ht, hduring⟩ := rangeFilters_during.mp hrow
      obtain ⟨d, hd, hwithin⟩ := (hmade t).mp hduring
      rw [if_pos ⟨huser, hrow⟩, Finset.sum_eq_single_of_mem d hd,
        if_pos ⟨huser, rangeFilters_during.mpr ⟨haffects, t, ht, hwithin⟩⟩]
      intro d' _ hne
      refine if_neg fun hrow' => ?_
      obtain ⟨_, t', ht', hwithin'⟩ := rangeFilters_during.mp hrow'.2
      cases Option.mem_unique ht ht'
      exact Set.disjoint_left.mp (hapart d' d hne) hwithin' hwithin
    · rw [if_neg hcounted]
      refine (Finset.sum_eq_zero fun d hd => if_neg ?_).symm
      rintro ⟨huser, hrow⟩
      obtain ⟨haffects, t, ht, hwithin⟩ := rangeFilters_during.mp hrow
      exact hcounted ⟨huser, rangeFilters_during.mpr ⟨haffects, t, ht, (hmade t).mpr ⟨d, hd, hwithin⟩⟩⟩

theorem partitioned_of_placed (h : ∀ t, Placed zone.toZone t) : Partitioned zone := by
  have hday : ∀ t d, t ∈ during (dayBounds zone.toZone d) ↔ d = businessDay zone.toZone t :=
    fun t d => (placed_iff.mp (h t)).1 d
  have hmonth : ∀ t m, t ∈ during (monthBounds zone.toZone m) ↔ m = businessMonth zone.toZone t :=
    fun t m => (placed_iff.mp (h t)).2 m
  have hapart : ∀ d d', d ≠ d' →
      Disjoint (during (dayBounds zone.toZone d)) (during (dayBounds zone.toZone d')) :=
    fun d d' hne => Set.disjoint_left.mpr fun t hd hd' =>
      hne (((hday t d).mp hd).trans ((hday t d').mp hd').symm)
  have hmade : ∀ month t, t ∈ during (monthBounds zone.toZone month) ↔
      ∃ d ∈ Finset.Ico (firstDay month) (firstDay (month + 1)),
        t ∈ during (dayBounds zone.toZone d) := by
    intro month t
    rw [hmonth]
    constructor
    · intro heq
      exact ⟨businessDay zone.toZone t, Finset.mem_Ico.mpr (monthOf_eq_iff.mpr heq),
        (hday t _).mpr rfl⟩
    · rintro ⟨d, hd, hwithin⟩
      rw [(hday t d).mp hwithin] at hd
      exact monthOf_eq_iff.mp (Finset.mem_Ico.mp hd)
  exact
    { inDay := fun t => (hday t _).mpr rfl
      inMonth := fun t => (hmonth t _).mpr rfl
      daysApart := hapart
      monthOfDays := fun month => by
        ext t
        rw [hmade]
        simp only [Set.mem_iUnion, exists_prop]
      monthScore := fun ledger user month => userScore_sum (hmade month) hapart ledger user }

/-- The periods of a zone divide the time exactly when no change of its clock leads across a local
midnight. -/
theorem partitioned_iff (zone : ZoneInfo) :
    Partitioned zone ↔ ∀ date, ¬ zone.Crossed (date * dayLength) := by
  constructor
  · intro h
    refine (tiled_iff_uncrossed zone).mp ⟨h.inDay, fun t t' s hs hs' => ?_⟩
    by_cases hsame : businessDay zone.toZone t = businessDay zone.toZone t'
    · change zone.span dayLength (businessDay zone.toZone t) =
        zone.span dayLength (businessDay zone.toZone t')
      rw [hsame]
    · exact (Set.disjoint_left.mp (h.daysApart _ _ hsame) hs hs').elim
  · exact fun h => partitioned_of_placed (placed_of_uncrossed h)

/-- In the hour that the clock showed again no instant is within its day. -/
theorem not_partitioned_autumn : ¬ ∀ zone : ZoneInfo, Partitioned zone := by
  intro h
  have hwithin := (h Lifecycle.autumn).inDay 1162089180000000
  revert hwithin
  rw [mem_during]
  decide

end Rankings

end CampusQuest
