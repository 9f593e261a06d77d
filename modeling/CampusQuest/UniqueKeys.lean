import CampusQuest.Doubles
import CampusQuest.Vocabulary

/-!
The keys by which the SQLite scan tells the values of a unique column apart. The key of a real
number is the decimal that is printed for it, while an index compares its exact value.
-/

namespace CampusQuest.Validators

open Doubles

inductive Number
  | integer (n : { n : ℤ // -2 ^ 63 ≤ n ∧ n < 2 ^ 63 })
  | real (d : Double)

inductive SqliteValue
  | number (x : Number)
  | text (value : Text)
  | blob (bytes : List UInt8)

/-- A tagged key; two decimals are equal by their values. -/
inductive UniqueKey
  | num (q : ℚ)
  | text (value : Text)
  | blob (bytes : List UInt8)
  deriving DecidableEq

/-- The exact value, by which an index compares integers and reals. -/
def Number.value : Number → ℚ
  | .integer n => n.1
  | .real d => d.value

section Keys

variable (str : Double → ℚ)

/-- `Decimal(value)` of an integer, `Decimal(str(value))` of a real. -/
def Number.decimal : Number → ℚ
  | .integer n => n.1
  | .real d => str d

def uniqueKey : SqliteValue → UniqueKey
  | .number x => .num (x.decimal str)
  | .text value => .text (strip value)
  | .blob bytes => .blob bytes

/-- An integer beside a real: the decimal that is printed for the real is its exact value, or the
integer is neither of the two. -/
def Undisturbed (n : ℤ) (d : Double) : Prop := str d = d.value ∨ (n : ℚ) ≠ d.value ∧ (n : ℚ) ≠ str d

/-- Two numbers of one storage class, or undisturbed ones of both. -/
def Comparable : Number → Number → Prop
  | .integer n, .real d => Undisturbed str n.1 d
  | .real d, .integer n => Undisturbed str n.1 d
  | .integer _, .integer _ => True
  | .real _, .real _ => True

end Keys

section Mirror

variable {float : ℚ → Option Double} {str : Double → ℚ}

theorem mixed_iff (n : ℤ) (d : Double) :
    (((n : ℚ) = str d) ↔ (n : ℚ) = d.value) ↔ Undisturbed str n d := by
  unfold Undisturbed
  constructor
  · intro h
    by_cases hn : (n : ℚ) = d.value
    · exact .inl ((h.mpr hn).symm.trans hn)
    · exact .inr ⟨hn, mt h.mp hn⟩
  · rintro (hsame | ⟨hvalue, hprinted⟩)
    · rw [hsame]
    · exact iff_of_false hprinted hvalue

end Mirror

/-- The keys of two numbers are equal exactly when their values are, if and only if the numbers
are of one class or the printed decimal does not come between them. -/
theorem unique_key_mirrors_iff {float : ℚ → Option Double} {str : Double → ℚ}
    (htext : DecimalText float str) (x y : Number) :
    (uniqueKey str (.number x) = uniqueKey str (.number y) ↔ x.value = y.value) ↔
      Comparable str x y := by
  have hkeys : uniqueKey str (.number x) = uniqueKey str (.number y) ↔
      x.decimal str = y.decimal str := UniqueKey.num.injEq _ _ ▸ Iff.rfl
  rw [hkeys]
  cases x with
  | integer n =>
    cases y with
    | integer n' => exact iff_of_true Iff.rfl trivial
    | real d => exact mixed_iff n.1 d
  | real d =>
    cases y with
    | integer n =>
      refine Iff.trans ?_ (mixed_iff n.1 d)
      exact iff_congr eq_comm eq_comm
    | real d' =>
      refine iff_of_true ⟨fun h => ?_, fun h => ?_⟩ trivial
      · rw [htext.str_injective h]
      · exact congrArg str (Double.ext h)

section Scene

def sceneInteger : Number := .integer ⟨2 ^ 62, by norm_num, by norm_num⟩

def sceneThree : Number := .integer ⟨3, by norm_num, by norm_num⟩

def sceneReal : Double := ⟨2 ^ 62, 2 ^ 52, 10, by norm_num, by norm_num, by norm_num, by norm_num⟩

def sceneHalf : Double := ⟨1 / 2, 1, -1, by norm_num, by norm_num, by norm_num, by norm_num⟩

/-- The power of two has nineteen significant digits. -/
theorem not_hasDigits_sixteen : ¬ HasDigits 16 (2 ^ 62) := by
  rintro ⟨a, j, ha, hvalue⟩
  rcases lt_or_ge 0 j with hj | hj
  · obtain ⟨k, rfl⟩ : ∃ k : ℕ, j = k + 1 := ⟨(j - 1).toNat, by omega⟩
    have hsplit : (2 : ℚ) ^ 62 = 5 * (a * 10 ^ k * 2) := by
      rw [hvalue, zpow_add₀ (by norm_num), zpow_natCast, zpow_one]
      ring
    have hten : (2 : ℤ) ^ 62 = 5 * (a * 10 ^ k * 2) := by exact_mod_cast hsplit
    omega
  · have hle : (10 : ℚ) ^ j ≤ 1 := zpow_le_one_of_nonpos₀ (by norm_num) hj
    have hpos : (0 : ℚ) < 10 ^ j := zpow_pos (by norm_num) j
    have ha' : (a : ℚ) < 10 ^ 16 := by exact_mod_cast (abs_lt.mp ha).2
    have hbound : (2 : ℚ) ^ 62 ≤ 10 ^ 16 := by
      rw [hvalue]
      calc (a : ℚ) * 10 ^ j ≤ 10 ^ 16 * 10 ^ j := mul_le_mul_of_nonneg_right ha'.le hpos.le
        _ ≤ 10 ^ 16 := mul_le_of_le_one_right (by norm_num) hle
    norm_num at hbound

/-- The text with sixteen digits is read as the power of two. -/
theorem reads_sceneReal {float : ℚ → Option Double} {str : Double → ℚ}
    (htext : DecimalText float str) : float 4611686018427388000 = some sceneReal := by
  obtain ⟨larger, hlarger⟩ : ∃ d : Double, d.value = 2 ^ 63 :=
    ⟨⟨2 ^ 63, 2 ^ 52, 11, by norm_num, by norm_num, by norm_num, by norm_num⟩, rfl⟩
  obtain ⟨d, hd⟩ := Option.ne_none_iff_exists'.mp (htext.range 4611686018427388000 larger (by
    rw [hlarger]
    norm_num))
  have hle := htext.nearest _ d hd sceneReal
  have hvalue : d.value = 2 ^ 62 := by
    refine eq_of_near ?_
    have hdistance : |(4611686018427388000 : ℚ) - sceneReal.value| = 96 := by
      change |(4611686018427388000 : ℚ) - 2 ^ 62| = 96
      norm_num
    rw [hdistance, abs_le] at hle
    rw [abs_lt]
    norm_num
    constructor <;> linarith [hle.1, hle.2]
  rw [hd, Double.ext (hvalue.trans rfl : d.value = sceneReal.value)]

theorem str_sceneReal_ne {float : ℚ → Option Double} {str : Double → ℚ}
    (htext : DecimalText float str) : str sceneReal ≠ 2 ^ 62 := by
  intro hsame
  have hdigits := htext.shortest sceneReal 4611686018427388000 16 (reads_sceneReal htext)
    ⟨4611686018427388, 3, by norm_num, by norm_num⟩
  rw [hsame] at hdigits
  exact not_hasDigits_sixteen hdigits

end Scene

/-- An integer and the real of the same value have two keys. -/
theorem equal_values_two_keys :
    ¬ ∀ (float : ℚ → Option Double) (str : Double → ℚ), DecimalText float str → ∀ x y : Number,
      (uniqueKey str (.number x) = uniqueKey str (.number y) ↔ x.value = y.value) := by
  intro hall
  obtain ⟨float, str, htext⟩ := exists_decimalText
  have hkeys := (hall float str htext sceneInteger (.real sceneReal)).mpr (by
    change ((2 ^ 62 : ℤ) : ℚ) = 2 ^ 62
    norm_num)
  refine str_sceneReal_ne htext ?_
  have hdecimal : ((2 ^ 62 : ℤ) : ℚ) = str sceneReal := UniqueKey.num.inj hkeys
  rw [← hdecimal]
  norm_num

/-- Three and a half have two values and two keys. -/
theorem three_and_half_keyed : ∃ float str, DecimalText float str ∧
    (uniqueKey str (.number sceneThree) = uniqueKey str (.number (.real sceneHalf)) ↔
      sceneThree.value = (Number.real sceneHalf).value) := by
  obtain ⟨float, str, htext⟩ := exists_decimalText
  refine ⟨float, str, htext, (unique_key_mirrors_iff htext _ _).mpr (.inr ⟨?_, ?_⟩)⟩
  · change ((3 : ℤ) : ℚ) ≠ 1 / 2
    norm_num
  · have hne : sceneHalf ≠ ofInt 3 (by norm_num) := by
      intro h
      have hvalue := congrArg Double.value h
      change (1 : ℚ) / 2 = ((3 : ℤ) : ℚ) at hvalue
      norm_num at hvalue
    exact (htext.str_ne_value hne).symm

end CampusQuest.Validators
