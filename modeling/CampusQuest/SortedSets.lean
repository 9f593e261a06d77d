import Mathlib.Data.List.Nodup
import Mathlib.Data.List.Sort
import Mathlib.Order.Defs.LinearOrder
import Mathlib.Tactic.Linarith

/-!
Sorted sets in descending order. The members stand by falling score, and by a fixed tie order where
their scores agree, so each member has a position. A range of positions is a window on the set, and
no member stands before all those with a higher score.
-/

namespace SortedSets

structure SortedSet (α β : Type*) [LT β] (tie : α → α → Prop) where
  rows : List (α × β)
  ordered : rows.Pairwise fun x y => y.2 < x.2 ∨ x.2 = y.2 ∧ tie x.1 y.1
  distinct : (rows.map Prod.fst).Nodup

/-- A window on a list, with the positions that its entries have in the whole. -/
theorem window_zipIdx {γ : Type*} (l : List γ) (first count k : ℕ) :
    ((l.drop first).take count).zipIdx (k + first) =
      (l.zipIdx k).filter fun e => k + first ≤ e.2 ∧ e.2 < k + first + count := by
  induction l generalizing first count k with
  | nil => simp
  | cons a l ih =>
    cases first with
    | succ first =>
      rw [List.drop_succ_cons, List.zipIdx_cons, List.filter_cons_of_neg (by simp),
        show k + (first + 1) = k + 1 + first by omega]
      exact ih first count (k + 1)
    | zero =>
      cases count with
      | zero =>
        refine (List.filter_eq_nil_iff.mpr fun e _ => ?_).symm
        simp only [decide_eq_true_eq]
        omega
      | succ count =>
        rw [List.drop_zero, List.take_succ_cons, List.zipIdx_cons, List.zipIdx_cons,
          List.filter_cons_of_pos (by simp)]
        refine congrArg _ (((ih 0 count (k + 1))).trans (List.filter_congr fun e he => ?_))
        have hlow := List.le_snd_of_mem_zipIdx he
        simp only [decide_eq_decide]
        omega

namespace SortedSet

variable {α β : Type*} [LinearOrder β] {tie : α → α → Prop} (s : SortedSet α β tie)

def position (i : ℤ) : ℤ := if i < 0 then i + s.rows.length else i

/-- `ZREVRANGE` with scores: the members from one index to another, both included. -/
def zrevrange (start stop : ℤ) : List (α × β) :=
  let first := max 0 (s.position start)
  (s.rows.drop first.toNat).take (s.position stop + 1 - first).toNat

def zrevrank [DecidableEq α] (a : α) : Option ℕ := s.rows.findIdx? fun row => row.1 = a

def zscore [DecidableEq α] (a : α) : Option β := (s.rows.find? fun row => row.1 = a).map (·.2)

variable {s} {a : α} {x : β} {i j : ℕ}

/-- A range between two indices from the front is the window between them. -/
theorem zrevrange_zipIdx {start stop : ℕ} (k : ℕ) (hk : k = start) :
    (s.zrevrange start stop).zipIdx k =
      s.rows.zipIdx.filter fun e => start ≤ e.2 ∧ e.2 ≤ stop := by
  subst hk
  have hstart : s.position (k : ℤ) = k := if_neg (by omega)
  have hstop : s.position (stop : ℤ) = stop := if_neg (by omega)
  have hwindow := window_zipIdx s.rows k ((stop : ℤ) + 1 - k).toNat 0
  unfold zrevrange
  dsimp only
  rw [hstart, hstop, max_eq_right (Int.natCast_nonneg k), Int.toNat_natCast]
  rw [Nat.zero_add] at hwindow
  rw [hwindow]
  refine List.filter_congr fun e _ => ?_
  simp only [decide_eq_decide]
  omega

/-- A member has one score. -/
theorem eq_of_mem {y : β} (hx : (a, x) ∈ s.rows) (hy : (a, y) ∈ s.rows) : x = y :=
  congrArg Prod.snd (List.inj_on_of_nodup_map s.distinct hx hy rfl)

section Ranks

variable [DecidableEq α]

theorem zrevrank_eq_some : s.zrevrank a = some i ↔ ∃ x, s.rows[i]? = some (a, x) := by
  unfold zrevrank
  rw [List.findIdx?_eq_some_iff_getElem]
  constructor
  · rintro ⟨hi, hat, _⟩
    refine ⟨s.rows[i].2, ?_⟩
    rw [List.getElem?_eq_getElem hi, ← of_decide_eq_true hat]
  · rintro ⟨x, hrow⟩
    obtain ⟨hi, hrow⟩ := List.getElem?_eq_some_iff.mp hrow
    refine ⟨hi, by rw [hrow]; exact decide_eq_true rfl, fun j hji => ?_⟩
    rw [decide_eq_true_eq]
    intro hsame
    -- Two positions of one member.
    have hlength : i < (s.rows.map Prod.fst).length := by rw [List.length_map]; exact hi
    have hmap : (s.rows.map Prod.fst)[i]? = (s.rows.map Prod.fst)[j]? := by
      rw [List.getElem?_map, List.getElem?_map, List.getElem?_eq_getElem hi,
        List.getElem?_eq_getElem (hji.trans hi), Option.map_some, Option.map_some, hrow, hsame]
    exact absurd ((List.getElem?_inj hlength s.distinct).mp hmap) (Nat.ne_of_gt hji)

theorem row_of_find {b : α} (h : s.rows.find? (fun row => row.1 = a) = some (b, x)) :
    b = a ∧ (b, x) ∈ s.rows := by
  have hsame := List.find?_some h
  rw [decide_eq_true_eq] at hsame
  exact ⟨hsame, List.mem_of_find?_eq_some h⟩

theorem zscore_eq_some : s.zscore a = some x ↔ (a, x) ∈ s.rows := by
  unfold zscore
  rw [Option.map_eq_some_iff]
  constructor
  · rintro ⟨⟨b, y⟩, hfind, rfl⟩
    obtain ⟨rfl, hmem⟩ := row_of_find hfind
    exact hmem
  · intro hmem
    cases hfind : s.rows.find? fun row => row.1 = a with
    | none => exact absurd (decide_eq_true rfl) (List.find?_eq_none.mp hfind _ hmem)
    | some row =>
      obtain ⟨b, y⟩ := row
      obtain ⟨rfl, hmem'⟩ := row_of_find hfind
      exact ⟨_, rfl, eq_of_mem hmem' hmem⟩

/-- A member has a position exactly when it has a score. -/
theorem zrevrank_isSome : (s.zrevrank a).isSome = (s.zscore a).isSome := by
  rw [Bool.eq_iff_iff, Option.isSome_iff_exists, Option.isSome_iff_exists]
  constructor
  · rintro ⟨i, hi⟩
    obtain ⟨x, hrow⟩ := zrevrank_eq_some.mp hi
    exact ⟨x, zscore_eq_some.mpr (List.mem_of_getElem? hrow)⟩
  · rintro ⟨x, hx⟩
    obtain ⟨i, hrow⟩ := List.mem_iff_getElem?.mp (zscore_eq_some.mp hx)
    exact ⟨i, zrevrank_eq_some.mpr ⟨x, hrow⟩⟩

end Ranks

/-- Those with a higher score stand before. -/
theorem higher_le (hrow : s.rows[i]? = some (a, x)) :
    (s.rows.filter fun row => x < row.2).length ≤ i := by
  obtain ⟨hi, hrow⟩ := List.getElem?_eq_some_iff.mp hrow
  have hsplit := List.take_append_drop i s.rows
  have hordered := s.ordered
  rw [← hsplit, List.pairwise_append] at hordered
  have hrest : (s.rows.drop i).filter (fun row => x < row.2) = [] := by
    rw [List.drop_eq_getElem_cons hi, hrow] at hordered ⊢
    refine List.filter_eq_nil_iff.mpr fun row hmem => ?_
    rw [decide_eq_true_eq, not_lt]
    rcases List.mem_cons.mp hmem with rfl | hmem
    · exact le_rfl
    · rcases (List.pairwise_cons.mp hordered.2.1).1 row hmem with hlower | ⟨hsame, _⟩
      · exact hlower.le
      · exact hsame.ge
  rw [← hsplit, List.filter_append, hrest, List.append_nil]
  exact (List.length_filter_le _ _).trans (List.length_take_le _ _)

section Sorting

variable {α β : Type*} [LinearOrder α] [LinearOrder β]

/-- The order of the rows, with the members of one score from the least. -/
def Before (x y : α × β) : Prop := y.2 < x.2 ∨ x.2 = y.2 ∧ x.1 ≤ y.1

instance : DecidableRel (Before (α := α) (β := β)) := fun _ _ => inferInstanceAs (Decidable (_ ∨ _))

instance : Std.Total (Before (α := α) (β := β)) := ⟨fun x y => by
  rcases lt_trichotomy x.2 y.2 with hlt | heq | hgt
  · exact .inr (.inl hlt)
  · exact (le_total x.1 y.1).imp (fun h => .inr ⟨heq, h⟩) fun h => .inr ⟨heq.symm, h⟩
  · exact .inl (.inl hgt)⟩

instance : IsTrans (α × β) Before := ⟨fun x y z hxy hyz => by
  rcases hxy with hxy | ⟨hxy, hle⟩
  · rcases hyz with hyz | ⟨hyz, _⟩
    · exact .inl (hyz.trans hxy)
    · exact .inl (hyz ▸ hxy)
  · rcases hyz with hyz | ⟨hyz, hle'⟩
    · exact .inl (hxy ▸ hyz)
    · exact .inr ⟨hxy.trans hyz, hle.trans hle'⟩⟩

def ofRows (l : List (α × β)) (h : (l.map Prod.fst).Nodup) : SortedSet α β (· < ·) where
  rows := l.insertionSort Before
  distinct := (((l.perm_insertionSort Before).map Prod.fst).nodup_iff).mpr h
  ordered := by
    have hdistinct := (((l.perm_insertionSort Before).map Prod.fst).nodup_iff).mpr h
    rw [List.nodup_iff_pairwise_ne, List.pairwise_map] at hdistinct
    refine ((List.pairwise_insertionSort Before l).and hdistinct).imp ?_
    rintro x y ⟨hlower | ⟨hsame, hle⟩, hne⟩
    · exact .inl hlower
    · exact .inr ⟨hsame, lt_of_le_of_ne hle hne⟩

theorem mem_ofRows {l : List (α × β)} {h : (l.map Prod.fst).Nodup} {row : α × β} :
    row ∈ (ofRows l h).rows ↔ row ∈ l :=
  List.mem_insertionSort _

end Sorting

end SortedSet

end SortedSets
