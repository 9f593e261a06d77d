import Mathlib.Data.Nat.Notation
import Mathlib.Logic.Function.Basic

/-!
A cap on guesses that are judged first and recorded afterwards. The meter of one item compares
the wrong guesses that were judged with the figure that is read before judging. While a guess
is judged only when no other one waits to be recorded and the figure is below the limit, at
most one judged guess is missing from the figure, so the limit is never passed.
-/

namespace AttemptMeter

/-- `judged` wrong guesses against the figure `recorded`; `Owing` says that one of them still
waits to be recorded. -/
structure Balanced (limit judged recorded : ℕ) (Owing : Prop) : Prop where
  capped : judged ≤ limit
  settled : ¬ Owing → judged ≤ recorded
  behind : judged ≤ recorded + 1

variable {limit judged recorded recorded' : ℕ} {Owing Owing' : Prop}

/-- Nothing has been judged. -/
theorem balanced_zero (limit recorded : ℕ) (Owing : Prop) : Balanced limit 0 recorded Owing :=
  ⟨Nat.zero_le _, fun _ => Nat.zero_le _, Nat.zero_le _⟩

namespace Balanced

/-- A guess that is judged while the figure is current comes before the limit. -/
theorem judged_lt (h : Balanced limit judged recorded Owing) (hsettled : ¬ Owing)
    (hlimit : recorded < limit) : judged < limit := by
  have hle := h.settled hsettled
  omega

theorem judge (h : Balanced limit judged recorded Owing) (hsettled : ¬ Owing)
    (hlimit : recorded < limit) (howing : Owing') : Balanced limit (judged + 1) recorded Owing' := by
  have hlt := h.judged_lt hsettled hlimit
  have hle := h.settled hsettled
  exact ⟨by omega, fun hnone => absurd howing hnone, by omega⟩

theorem record (h : Balanced limit judged recorded Owing) (hrecorded : recorded + 1 ≤ recorded') :
    Balanced limit judged recorded' Owing' := by
  have hbehind := h.behind
  exact ⟨h.capped, fun _ => by omega, by omega⟩

/-- The figure may grow, and a guess that waits may be joined by others. -/
theorem mono (h : Balanced limit judged recorded Owing) (hrecorded : recorded ≤ recorded')
    (howing : Owing → Owing') : Balanced limit judged recorded' Owing' := by
  have hbehind := h.behind
  refine ⟨h.capped, fun hnone => ?_, by omega⟩
  have hle := h.settled fun ho => hnone (howing ho)
  omega

end Balanced

/-- One of the processes still has a duty after one of them has moved without dropping it. -/
theorem exists_update {ι Λ : Type*} [DecidableEq ι] {proc : ι → Λ} {p : Λ → Prop} {i : ι} {m' : Λ}
    (hkept : p (proc i) → p m') (h : ∃ j, p (proc j)) : ∃ j, p (Function.update proc i m' j) := by
  obtain ⟨j, hj⟩ := h
  by_cases hji : j = i
  · subst hji
    exact ⟨j, by rw [Function.update_self]; exact hkept hj⟩
  · exact ⟨j, by rw [Function.update_of_ne hji]; exact hj⟩

end AttemptMeter
