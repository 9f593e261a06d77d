import Mathlib.Data.Int.Notation
import Mathlib.Order.Defs.LinearOrder

/-!
Wall clocks that are set forward and back. A zone says from which instant on the wall clock
runs how far ahead of the instants. A wall time is read back as an instant by the offset
before a change until both offsets have passed it, so a time that the clock shows twice
means the first of the two, and one that it skips is counted on from before the gap. The
reading is the inverse of the clock at every wall time that no change of the clock crosses.
-/

namespace WallClock

/-- From the instant `since` on, the wall clock is `offset` ahead. -/
structure Change where
  since : ℤ
  offset : ℤ
  deriving DecidableEq

def offsetFrom : ℤ → List Change → ℤ → ℤ
  | offset, [], _ => offset
  | offset, c :: rest, t => if t < c.since then offset else offsetFrom c.offset rest t

def readFrom : ℤ → List Change → ℤ → ℤ
  | offset, [], _ => offset
  | offset, c :: rest, w =>
    if w < c.since + max offset c.offset then offset else readFrom c.offset rest w

/-- A change of the clock skips the wall time or comes back across it. -/
def CrossedFrom (w : ℤ) : ℤ → List Change → Prop
  | _, [] => False
  | offset, c :: rest =>
    (c.since + min offset c.offset < w ∧ w < c.since + max offset c.offset) ∨
      CrossedFrom w c.offset rest

instance decidableCrossedFrom (w : ℤ) :
    (offset : ℤ) → (changes : List Change) → Decidable (CrossedFrom w offset changes)
  | _, [] => inferInstanceAs (Decidable False)
  | _, c :: rest =>
    have := decidableCrossedFrom w c.offset rest
    inferInstanceAs (Decidable ((_ ∧ _) ∨ CrossedFrom w c.offset rest))

/-- Before the next change the clock runs as it did. -/
theorem offsetFrom_of_lt {offset : ℤ} {changes : List Change} {t : ℤ}
    (h : ∀ c ∈ changes, t < c.since) : offsetFrom offset changes t = offset := by
  cases changes with
  | nil => rfl
  | cons c rest => exact if_pos (h c List.mem_cons_self)

/-- A wall time that no change crosses has been reached when its instant has. -/
theorem read_le_iff {w t : ℤ} {offset : ℤ} {changes : List Change}
    (hordered : changes.Pairwise fun c c' => c.since < c'.since)
    (hcrossed : ¬ CrossedFrom w offset changes) :
    w - readFrom offset changes w ≤ t ↔ w ≤ t + offsetFrom offset changes t := by
  induction changes generalizing offset t with
  | nil =>
    change w - offset ≤ t ↔ w ≤ t + offset
    omega
  | cons c rest ih =>
    obtain ⟨hlater, hrest⟩ := List.pairwise_cons.mp hordered
    have huncrossed : ¬ CrossedFrom w c.offset rest := fun h => hcrossed (Or.inr h)
    have hside : ¬ (c.since + min offset c.offset < w ∧ w < c.since + max offset c.offset) :=
      fun h => hcrossed (Or.inl h)
    have hnext : ∀ t, t < c.since → offsetFrom c.offset rest t = c.offset := by
      intro t ht
      exact offsetFrom_of_lt fun c' hc' => Int.lt_trans ht (hlater c' hc')
    unfold readFrom offsetFrom
    by_cases hread : w < c.since + max offset c.offset
    · rw [if_pos hread]
      have hbefore : w ≤ c.since + offset ∧ w ≤ c.since + c.offset := by omega
      by_cases ht : t < c.since
      · rw [if_pos ht]
        omega
      · -- The clock has changed, and stands past the wall time ever since.
        rw [if_neg ht]
        have hpast : w - readFrom c.offset rest w ≤ t := by
          cases rest with
          | nil =>
            change w - c.offset ≤ t
            omega
          | cons c' rest' =>
            have hsoon : c.since < c'.since := hlater c' List.mem_cons_self
            have hfirst : w < c'.since + max c.offset c'.offset := by omega
            unfold readFrom
            rw [if_pos hfirst]
            omega
        have hshown := (ih hrest huncrossed (t := t)).mp hpast
        omega
    · rw [if_neg hread]
      by_cases ht : t < c.since
      · -- The clock will not show the wall time before the change.
        rw [if_pos ht]
        have hlate := ih hrest huncrossed (t := t)
        rw [hnext t ht] at hlate
        omega
      · rw [if_neg ht]
        exact ih hrest huncrossed

structure Zone where
  offset : ℤ
  changes : List Change
  ordered : changes.Pairwise fun c c' => c.since < c'.since

namespace Zone

variable (z : Zone)

def wall (t : ℤ) : ℤ := t + offsetFrom z.offset z.changes t

def instant (w : ℤ) : ℤ := w - readFrom z.offset z.changes w

def Crossed (w : ℤ) : Prop := CrossedFrom w z.offset z.changes

instance (w : ℤ) : Decidable (z.Crossed w) := inferInstanceAs (Decidable (CrossedFrom _ _ _))

theorem instant_le_iff {w t : ℤ} (h : ¬ z.Crossed w) : z.instant w ≤ t ↔ w ≤ z.wall t :=
  read_le_iff z.ordered h

def day (length t : ℤ) : ℤ := z.wall t / length

def dayStart (length d : ℤ) : ℤ := z.instant (d * length)

def Regular (length t : ℤ) : Prop := ∀ d, z.dayStart length d ≤ t ↔ d ≤ z.day length t

variable {z}

/-- A zone whose clock never crosses the beginning of a day is regular throughout. -/
theorem regular_of_uncrossed {length : ℤ} (hlength : 0 < length)
    (h : ∀ d, ¬ z.Crossed (d * length)) (t : ℤ) : z.Regular length t := by
  intro d
  unfold dayStart day
  rw [z.instant_le_iff (h d), Int.le_ediv_iff_mul_le hlength]

/-- A regular instant lies within the day on the wall clock and within no other. -/
theorem Regular.within_iff {length t d : ℤ} (h : z.Regular length t) :
    (z.dayStart length d ≤ t ∧ t < z.dayStart length (d + 1)) ↔ d = z.day length t := by
  have hstart := h d
  have hstop := h (d + 1)
  omega

end Zone

end WallClock
