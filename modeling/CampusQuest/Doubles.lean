import Mathlib.Algebra.Order.Field.Power
import Mathlib.Algebra.Order.Floor.Ring
import Mathlib.Data.Fintype.Lattice
import Mathlib.Data.Rat.Floor
import Mathlib.Data.Set.Finite.Range
import Mathlib.Data.Fintype.Prod
import Mathlib.Data.Int.Interval
import Mathlib.Tactic.FieldSimp
import Mathlib.Tactic.Linarith
import Mathlib.Tactic.NormNum
import Mathlib.Tactic.Ring

/-!
Finite doubles by their exact values, and the decimal texts that are printed for them. A text is
read as a nearest double, and the text of a double is as short as any that is read as it.
-/

namespace Doubles

/-- The values of the finite doubles: a significand of 53 bits times a power of two. -/
def IsDouble (q : ℚ) : Prop :=
  ∃ m e : ℤ, |m| < 2 ^ 53 ∧ -1074 ≤ e ∧ e ≤ 971 ∧ q = m * 2 ^ e

/-- A finite double; the two zeros have one value. -/
@[ext] structure Double where
  value : ℚ
  isDouble : IsDouble value

/-- A number that a decimal text with `k` significant digits can denote. -/
def HasDigits (k : ℕ) (q : ℚ) : Prop := ∃ a j : ℤ, |a| < 10 ^ k ∧ q = a * 10 ^ j

theorem HasDigits.mono {k k' : ℕ} {q : ℚ} (h : HasDigits k q) (hk : k ≤ k') : HasDigits k' q := by
  obtain ⟨a, j, ha, hq⟩ := h
  exact ⟨a, j, ha.trans_le (pow_le_pow_right₀ (by norm_num) hk), hq⟩

/-- What is relied on of reading a decimal as a double, `none` where it overflows, and of the
shortest text that is read as a double again. -/
structure DecimalText (float : ℚ → Option Double) (str : Double → ℚ) : Prop where
  nearest : ∀ q d, float q = some d → ∀ d' : Double, |q - d.value| ≤ |q - d'.value|
  range : ∀ q (d : Double), |q| ≤ |d.value| → float q ≠ none
  roundTrip : ∀ d, float (str d) = some d
  shortest : ∀ d q k, float q = some d → HasDigits k q → HasDigits k (str d)

section Text

variable {float : ℚ → Option Double} {str : Double → ℚ}

theorem DecimalText.str_injective (h : DecimalText float str) {d d' : Double}
    (hsame : str d = str d') : d = d' := by
  have hd := h.roundTrip d
  rw [hsame, h.roundTrip d'] at hd
  exact (Option.some.inj hd).symm

theorem DecimalText.eq_of_value (h : DecimalText float str) {d d' : Double}
    (hread : float d.value = some d') : d' = d := by
  have hle := h.nearest _ _ hread d
  rw [sub_self, abs_zero] at hle
  have hzero := abs_eq_zero.mp (le_antisymm hle (abs_nonneg _))
  exact Double.ext (sub_eq_zero.mp hzero).symm

/-- An integer that is itself a double is printed for no other double. -/
theorem DecimalText.str_ne_value (h : DecimalText float str) {d d' : Double} (hne : d ≠ d') :
    str d ≠ d'.value := by
  intro hsame
  have hread := h.roundTrip d
  rw [hsame] at hread
  exact hne (h.eq_of_value hread)

end Text

/-! ### There is such a reading -/

instance : Finite Double := by
  let f : (Finset.Ioo (-(2 : ℤ) ^ 53) (2 ^ 53)) × (Finset.Icc (-1074 : ℤ) 971) → ℚ :=
    fun p => p.1.1 * 2 ^ p.2.1
  have hfinite : Set.Finite {q | IsDouble q} := by
    refine (Set.finite_range f).subset ?_
    rintro q ⟨m, e, hm, hlow, hhigh, rfl⟩
    rw [abs_lt] at hm
    exact ⟨⟨⟨m, Finset.mem_Ioo.mpr hm⟩, ⟨e, Finset.mem_Icc.mpr ⟨hlow, hhigh⟩⟩⟩, rfl⟩
  have := hfinite.to_subtype
  exact Finite.of_injective (fun d : Double => (⟨d.value, d.isDouble⟩ : {q | IsDouble q}))
    fun d d' h => Double.ext (congrArg Subtype.val h)

/-- The double of an integer below the significand's bound. -/
def ofInt (m : ℤ) (h : |m| < 2 ^ 53) : Double :=
  ⟨m, m, 0, h, by norm_num, by norm_num, by rw [zpow_zero, mul_one]⟩

theorem exists_nearest (q : ℚ) : ∃ d : Double, ∀ d' : Double, |q - d.value| ≤ |q - d'.value| :=
  have : Nonempty Double := ⟨ofInt 0 (by norm_num)⟩
  Finite.exists_min fun d : Double => |q - d.value|

/-- Every double has a decimal text. -/
theorem Double.exists_hasDigits (d : Double) : ∃ k, HasDigits k d.value := by
  obtain ⟨m, e, _, _, _, hvalue⟩ := d.isDouble
  have hdigits : ∀ a j : ℤ, ∃ k, HasDigits k ((a : ℚ) * 10 ^ j) := by
    intro a j
    refine ⟨a.natAbs + 1, a, j, ?_, rfl⟩
    have hlt : a.natAbs < 10 ^ (a.natAbs + 1) :=
      (Nat.lt_succ_self _).trans (Nat.lt_pow_self (by norm_num))
    rw [Int.abs_eq_natAbs]
    exact_mod_cast hlt
  rw [hvalue]
  rcases le_or_gt 0 e with he | he
  · obtain ⟨n, rfl⟩ := Int.eq_ofNat_of_zero_le he
    obtain ⟨k, hk⟩ := hdigits (m * 2 ^ n) 0
    refine ⟨k, ?_⟩
    rw [zpow_zero, mul_one] at hk
    push_cast at hk
    exact hk
  · obtain ⟨n, hn⟩ := Int.eq_ofNat_of_zero_le (Int.neg_nonneg.mpr he.le)
    obtain rfl : e = -n := by omega
    obtain ⟨k, hk⟩ := hdigits (m * 5 ^ n) (-n)
    refine ⟨k, ?_⟩
    have hsame : ((m * 5 ^ n : ℤ) : ℚ) * 10 ^ (-(n : ℤ)) = m * 2 ^ (-(n : ℤ)) := by
      have hten : (10 : ℚ) = 5 * 2 := by norm_num
      push_cast
      rw [hten, mul_zpow, zpow_neg, zpow_neg, zpow_natCast, zpow_natCast]
      field_simp
    rw [hsame] at hk
    exact hk

theorem exists_decimalText : ∃ float str, DecimalText float str := by
  choose nearest hnearest using exists_nearest
  have hvalue : ∀ d : Double, nearest d.value = d := by
    intro d
    have hle := hnearest d.value d
    rw [sub_self, abs_zero] at hle
    have hzero := abs_eq_zero.mp (le_antisymm hle (abs_nonneg _))
    exact Double.ext (sub_eq_zero.mp hzero).symm
  have hlength : ∀ d, ∃ k q, nearest q = d ∧ HasDigits k q := by
    intro d
    obtain ⟨k, hk⟩ := d.exists_hasDigits
    exact ⟨k, d.value, hvalue d, hk⟩
  have hshortest : ∀ d, ∃ q, nearest q = d ∧ ∀ q' k, nearest q' = d → HasDigits k q' →
      HasDigits k q := by
    intro d
    classical
    obtain ⟨q, hq, hdigits⟩ := Nat.find_spec (hlength d)
    refine ⟨q, hq, fun q' k hq' hk => ?_⟩
    exact hdigits.mono (Nat.find_min' (hlength d) ⟨q', hq', hk⟩)
  choose str hstr using hshortest
  refine ⟨fun q => some (nearest q), str, ?_, ?_, ?_, ?_⟩
  · intro q d h
    rw [← Option.some.inj h]
    exact hnearest q
  · exact fun _ _ _ h => (by cases h)
  · exact fun d => congrArg some (hstr d).1
  · exact fun d q k h hk => (hstr d).2 q k (Option.some.inj h) hk

/-! ### The doubles around a power of two -/

/-- A double near `2 ^ 62` is that power: the next ones are `512` away. -/
theorem eq_of_near {d : Double} (h : |d.value - 2 ^ 62| < 512) : d.value = 2 ^ 62 := by
  obtain ⟨m, e, hm, _, _, hvalue⟩ := d.isDouble
  rw [hvalue] at h ⊢
  rcases le_or_gt 9 e with he | he
  · obtain ⟨n, rfl⟩ : ∃ n : ℕ, e = 9 + n := ⟨(e - 9).toNat, by omega⟩
    have hsplit : (m : ℚ) * 2 ^ (9 + (n : ℤ)) = ((m * 2 ^ n : ℤ) : ℚ) * 512 := by
      rw [zpow_add₀ (by norm_num), zpow_natCast]
      push_cast
      ring
    have hpower : (2 : ℚ) ^ 62 = ((2 ^ 53 : ℤ) : ℚ) * 512 := by norm_num
    rw [hsplit, hpower, ← sub_mul, abs_mul, ← Int.cast_sub, ← Int.cast_abs] at h
    have hone : ((|m * 2 ^ n - 2 ^ 53| : ℤ) : ℚ) < 1 := by
      have habs : |(512 : ℚ)| = 512 := by norm_num
      rw [habs] at h
      linarith
    have hzero : |m * 2 ^ n - 2 ^ 53| = 0 := by
      have hlt : |m * 2 ^ n - 2 ^ 53| < 1 := by exact_mod_cast hone
      have hnonneg := abs_nonneg (m * 2 ^ n - 2 ^ 53)
      omega
    rw [hsplit, hpower, sub_eq_zero.mp (abs_eq_zero.mp hzero)]
  · have hsmall : |(m : ℚ) * 2 ^ e| < 2 ^ 61 := by
      have hpow : (2 : ℚ) ^ e ≤ 2 ^ (8 : ℤ) := zpow_le_zpow_right₀ (by norm_num) (by omega)
      have hpos : (0 : ℚ) < 2 ^ e := zpow_pos (by norm_num) e
      have hm' : |(m : ℚ)| < 2 ^ 53 := by exact_mod_cast hm
      rw [abs_mul, abs_of_pos hpos]
      calc |(m : ℚ)| * 2 ^ e < 2 ^ 53 * 2 ^ e := mul_lt_mul_of_pos_right hm' hpos
        _ ≤ 2 ^ 53 * 2 ^ (8 : ℤ) := mul_le_mul_of_nonneg_left hpow (by norm_num)
        _ = 2 ^ 61 := by norm_num
    rw [abs_lt] at h hsmall
    exact absurd h.1 (by norm_num at hsmall ⊢; linarith)

end Doubles
