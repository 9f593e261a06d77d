import CampusQuest.PointRows
import Mathlib.Data.List.Dedup

/-!
The ledger aggregates behind every ranking score. The queries sum the amounts of ranking
rows whose effective instant lies in a half-open range, with either bound absent.
-/

namespace CampusQuest.Rankings

open Points

def rangeFilters (startsAt endsAt : Option Instant) (e : PointsLedger) : Bool :=
  e.affectsRanking &&
    startsAt.all (fun start => e.rankingEffectiveAt.any (start ≤ ·)) &&
    endsAt.all (fun stop => e.rankingEffectiveAt.any (· < stop))

def totalAmount (rows : List PointsLedger) : ℤ := (rows.map (·.amount)).sum

def userScore (ledger : List PointsLedger) (user : UserId) (startsAt endsAt : Option Instant) : ℤ :=
  totalAmount (ledger.filter fun e => e.userId == user && rangeFilters startsAt endsAt e)

def rangeScores (ledger : List PointsLedger) (startsAt endsAt : Option Instant) :
    List (UserId × ℤ) :=
  let rows := ledger.filter (rangeFilters startsAt endsAt)
  (rows.map (·.userId)).dedup.map fun user =>
    (user, totalAmount (rows.filter fun e => e.userId == user))

def distinctEffectiveAt (ledger : List PointsLedger) : List Instant :=
  ((ledger.filter (·.affectsRanking)).filterMap (·.rankingEffectiveAt)).dedup

def Ranked (ledger : List PointsLedger) (user : UserId) (startsAt endsAt : Option Instant) : Prop :=
  ∃ e ∈ ledger, e.userId = user ∧ rangeFilters startsAt endsAt e = true

variable {ledger : List PointsLedger} {user : UserId} {startsAt endsAt : Option Instant}

/-- The groups are the users with a ranking row, each with its own score. -/
theorem mem_rangeScores {score : ℤ} :
    (user, score) ∈ rangeScores ledger startsAt endsAt ↔
      Ranked ledger user startsAt endsAt ∧ score = userScore ledger user startsAt endsAt := by
  have hgroup : (ledger.filter (rangeFilters startsAt endsAt)).filter (fun e => e.userId == user) =
      ledger.filter fun e => e.userId == user && rangeFilters startsAt endsAt e := List.filter_filter
  simp only [rangeScores, List.mem_map, List.mem_dedup, List.mem_filter, Prod.mk.injEq]
  constructor
  · rintro ⟨_, ⟨e, ⟨he, hrow⟩, hname⟩, rfl, rfl⟩
    exact ⟨⟨e, he, hname, hrow⟩, by rw [hgroup]; rfl⟩
  · rintro ⟨⟨e, he, hname, hrow⟩, rfl⟩
    exact ⟨user, ⟨e, ⟨he, hrow⟩, hname⟩, rfl, by rw [hgroup]; rfl⟩

theorem mem_distinctEffectiveAt {instant : Instant} :
    instant ∈ distinctEffectiveAt ledger ↔
      ∃ e ∈ ledger, e.affectsRanking = true ∧ e.rankingEffectiveAt = some instant := by
  simp only [distinctEffectiveAt, List.mem_dedup, List.mem_filterMap, List.mem_filter, and_assoc]

theorem rangeFilters_iff {e : PointsLedger} {instant : Instant}
    (heffective : e.rankingEffectiveAt = some instant) :
    rangeFilters startsAt endsAt e = true ↔ e.affectsRanking = true ∧
      (∀ start, startsAt = some start → start ≤ instant) ∧
      ∀ stop, endsAt = some stop → instant < stop := by
  cases startsAt <;> cases endsAt <;>
    simp [rangeFilters, heffective, and_assoc]

/-- Another user's row, or one outside the range, leaves a score alone. -/
theorem userScore_append (e : PointsLedger) :
    userScore (ledger ++ [e]) user startsAt endsAt = userScore ledger user startsAt endsAt +
      if e.userId = user ∧ rangeFilters startsAt endsAt e = true then e.amount else 0 := by
  unfold userScore totalAmount
  rw [List.filter_append, List.map_append, List.sum_append]
  by_cases h : e.userId = user ∧ rangeFilters startsAt endsAt e = true
  · simp [h]
  · rw [if_neg h]
    have hdrop : [e].filter (fun e => e.userId == user && rangeFilters startsAt endsAt e) = [] := by
      rw [List.filter_eq_nil_iff]
      intro e' he' hrow
      rw [List.mem_singleton.mp he', Bool.and_eq_true, beq_iff_eq] at hrow
      exact h hrow
    rw [hdrop]
    simp

end CampusQuest.Rankings
