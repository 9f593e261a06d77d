import Mathlib.Data.Int.Notation
import Mathlib.Data.Nat.Notation
import Mathlib.Order.Monotone.Basic
import Mathlib.Tactic.Linarith

/-!
Months of the proleptic Gregorian calendar. Days are numbered from 1 January 1970 and
months from January of the year 0, so that month `m` is month `m % 12 + 1` of the year
`m / 12`. The first days of the months increase, and every day lies in one month.
-/

namespace Calendar

def isLeap (year : ℤ) : Bool := year % 4 = 0 && (year % 100 ≠ 0 || year % 400 = 0)

def daysBeforeYear (year : ℤ) : ℤ :=
  (year - 1) * 365 + (year - 1) / 4 - (year - 1) / 100 + (year - 1) / 400

def daysBeforeMonth (index : ℕ) : ℤ :=
  [0, 31, 59, 90, 120, 151, 181, 212, 243, 273, 304, 334].getD index 0

def firstDay (month : ℤ) : ℤ :=
  daysBeforeYear (month / 12) + daysBeforeMonth (month % 12).toNat +
    (if 2 ≤ month % 12 ∧ isLeap (month / 12) = true then 1 else 0) - 719162

theorem firstDay_succ (month : ℤ) : firstDay month + 28 ≤ firstDay (month + 1) := by
  have hlow : 0 ≤ month % 12 := Int.emod_nonneg _ (by decide)
  have hhigh : month % 12 < 12 := Int.emod_lt_of_pos _ (by decide)
  obtain ⟨year, index, hmonth, hindex, hbound⟩ :
      ∃ year index : ℤ, month = 12 * year + index ∧ 0 ≤ index ∧ index < 12 :=
    ⟨month / 12, month % 12, by omega, hlow, hhigh⟩
  have hyear : month / 12 = year := by omega
  have hrest : month % 12 = index := by omega
  unfold firstDay
  rw [hyear, hrest]
  by_cases hlast : index = 11
  · have hyear' : (month + 1) / 12 = year + 1 := by omega
    have hrest' : (month + 1) % 12 = 0 := by omega
    rw [hyear', hrest', hlast]
    have hstart : daysBeforeYear (year + 1) = daysBeforeYear year + 365 +
        (if isLeap year = true then 1 else 0) := by
      unfold daysBeforeYear isLeap
      simp only [Bool.and_eq_true, Bool.or_eq_true, decide_eq_true_eq]
      split
      · omega
      · omega
    rw [hstart]
    cases hleap : isLeap year <;> simp [daysBeforeMonth] <;> omega
  · have hyear' : (month + 1) / 12 = year := by omega
    have hrest' : (month + 1) % 12 = index + 1 := by omega
    rw [hyear', hrest']
    have hcases : index = 0 ∨ index = 1 ∨ index = 2 ∨ index = 3 ∨ index = 4 ∨ index = 5 ∨
        index = 6 ∨ index = 7 ∨ index = 8 ∨ index = 9 ∨ index = 10 := by omega
    rcases hcases with rfl | rfl | rfl | rfl | rfl | rfl | rfl | rfl | rfl | rfl | rfl
    all_goals cases hleap : isLeap year <;> simp [daysBeforeMonth] <;> omega

def monthFrom (day : ℤ) : ℕ → ℤ → ℤ
  | 0, month => month
  | n + 1, month => if firstDay (month + 1) ≤ day then monthFrom day n (month + 1) else month

/-- The month of a day. The search begins in the year before the one that the mean length
of a year gives. -/
def monthOf (day : ℤ) : ℤ :=
  monthFrom day 36 (12 * ((day + 719162) * 400 / 146097))

theorem firstDay_mono {a b : ℤ} (h : a ≤ b) : firstDay a ≤ firstDay b := by
  refine monotone_int_of_le_succ (fun month => ?_) h
  have := firstDay_succ month
  omega

theorem firstDay_year (year : ℤ) : firstDay (12 * year) = daysBeforeYear year - 719162 := by
  have hyear : 12 * year / 12 = year := by omega
  have hrest : 12 * year % 12 = 0 := by omega
  unfold firstDay
  rw [hyear, hrest]
  simp [daysBeforeMonth]

theorem monthFrom_begun {day month : ℤ} (n : ℕ) (h : firstDay month ≤ day) :
    firstDay (monthFrom day n month) ≤ day := by
  induction n generalizing month with
  | zero => exact h
  | succ n ih =>
    unfold monthFrom
    split
    next hnext => exact ih hnext
    next => exact h

theorem monthFrom_last {day month : ℤ} (n : ℕ) (h : day < firstDay (month + n + 1)) :
    day < firstDay (monthFrom day n month + 1) := by
  induction n generalizing month with
  | zero =>
    change day < firstDay (month + 1)
    simpa using h
  | succ n ih =>
    unfold monthFrom
    split
    · refine ih ?_
      have hsame : month + 1 + (n : ℤ) + 1 = month + ((n + 1 : ℕ) : ℤ) + 1 := by
        push_cast
        omega
      rw [hsame]
      exact h
    next hnext => exact Int.not_le.mp hnext

/-- The months that have begun on a day are those up to its own. -/
theorem firstDay_le_iff (day month : ℤ) : firstDay month ≤ day ↔ month ≤ monthOf day := by
  have hbegun : firstDay (12 * ((day + 719162) * 400 / 146097)) ≤ day := by
    rw [firstDay_year]
    unfold daysBeforeYear
    omega
  have hlast : day < firstDay (12 * ((day + 719162) * 400 / 146097) + 36 + 1) := by
    have hyear : firstDay (12 * ((day + 719162) * 400 / 146097 + 3)) ≤
        firstDay (12 * ((day + 719162) * 400 / 146097) + 36 + 1) := firstDay_mono (by omega)
    refine lt_of_lt_of_le ?_ hyear
    rw [firstDay_year]
    unfold daysBeforeYear
    omega
  have hfirst : firstDay (monthOf day) ≤ day := monthFrom_begun 36 hbegun
  have hnext : day < firstDay (monthOf day + 1) := monthFrom_last 36 hlast
  constructor
  · intro h
    by_contra hlater
    have := firstDay_mono (a := monthOf day + 1) (b := month) (by omega)
    omega
  · intro h
    exact (firstDay_mono h).trans hfirst

/-- The days of a month run from its first day to the first of the next. -/
theorem monthOf_eq_iff {day month : ℤ} :
    (firstDay month ≤ day ∧ day < firstDay (month + 1)) ↔ month = monthOf day := by
  have hbegun := firstDay_le_iff day month
  have hnext := firstDay_le_iff day (month + 1)
  omega

example : monthOf 14913 = 12 * 2010 + 10 - 1 ∧ firstDay (12 * 2010 + 10 - 1) = 14883 := by decide

end Calendar
