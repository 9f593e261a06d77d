import Mathlib.Data.Finmap
import Mathlib.Data.Finset.Sort
import Mathlib.Algebra.BigOperators.Group.Multiset.Basic
import Mathlib.Algebra.BigOperators.Group.Finset.Basic
import Mathlib.Algebra.Order.BigOperators.Group.Finset
import Mathlib.Algebra.Order.BigOperators.Group.Multiset
import Mathlib.Data.Multiset.Fintype
import Mathlib.Tactic.Abel

/-!
Keyed tables as finite maps. A table sends a key to at most one row, so a primary
key needs no separate invariant. Totals and counts range over all rows, and the two
update lemmas say how a total moves when a fresh row is put or a row is replaced.
Everything here is computable, so a table can be evaluated.
-/

namespace Tables

section Sorting

variable {α β : Type*} [LinearOrder β] {a b : α} {l : List α}

/-- Two elements of a list stand in it one before the other. -/
theorem pair_sublist (hne : a ≠ b) (ha : a ∈ l) (hb : b ∈ l) :
    [a, b].Sublist l ∨ [b, a].Sublist l := by
  induction l with
  | nil => cases ha
  | cons x l ih =>
    rcases List.mem_cons.mp ha with rfl | hal
    · have hbl : b ∈ l := (List.mem_cons.mp hb).resolve_left hne.symm
      exact Or.inl ((List.singleton_sublist.mpr hbl).cons_cons a)
    · rcases List.mem_cons.mp hb with rfl | hbl
      · exact Or.inr ((List.singleton_sublist.mpr hal).cons_cons b)
      · exact (ih hal hbl).imp (List.Sublist.cons x) (List.Sublist.cons x)

theorem not_pair_sublist (hnodup : l.Nodup) (hab : [a, b].Sublist l) : ¬ [b, a].Sublist l := by
  intro hba
  induction hnodup with
  | nil => cases hab
  | @cons x l hx _ ih =>
    cases hab with
    | cons _ hab =>
      cases hba with
      | cons _ hba => exact ih hab hba
      | cons_cons _ _ => exact hx b (hab.subset (by simp)) rfl
    | cons_cons _ hab =>
      cases hba with
      | cons _ hba => exact hx a (hba.subset (by simp)) rfl
      | cons_cons _ _ => exact hx a (hab.subset (by simp)) rfl

/-- Sorting by a figure keeps the order of the rows that agree in it. -/
theorem mergeSort_stable {g : α → β} {r : α → α → Prop} (hl : l.Pairwise r)
    (hasymm : ∀ a b, r a b → ¬ r b a) :
    (l.mergeSort fun a b => decide (g a ≤ g b)).Pairwise fun a b =>
      g a < g b ∨ g a = g b ∧ r a b := by
  have htrans : ∀ a b c : α, decide (g a ≤ g b) = true → decide (g b ≤ g c) = true →
      decide (g a ≤ g c) = true := fun a b c hab hbc =>
    decide_eq_true ((of_decide_eq_true hab).trans (of_decide_eq_true hbc))
  have htotal : ∀ a b : α, (decide (g a ≤ g b) || decide (g b ≤ g a)) = true := fun a b => by
    rw [Bool.or_eq_true, decide_eq_true_eq, decide_eq_true_eq]
    exact le_total _ _
  have hnodup : l.Nodup := hl.imp fun {a b} (hab : r a b) (heq : a = b) =>
    hasymm a b hab (heq ▸ heq ▸ hab)
  have hsorted := List.pairwise_mergeSort htrans htotal l
  have hperm := List.mergeSort_perm l fun a b => decide (g a ≤ g b)
  refine List.pairwise_of_forall_sublist fun {a b} hab => ?_
  rcases (of_decide_eq_true (hsorted.forall_sublist hab)).lt_or_eq with hlt | heq
  · exact Or.inl hlt
  · have hne : a ≠ b := by
      rintro rfl
      have := (hperm.nodup_iff.mpr hnodup).sublist hab
      simp at this
    refine Or.inr ⟨heq, ?_⟩
    rcases pair_sublist hne (hperm.subset (hab.subset (by simp)))
      (hperm.subset (hab.subset (by simp))) with hfirst | hsecond
    · exact hl.forall_sublist hfirst
    · have hba := List.pair_sublist_mergeSort htrans htotal (decide_eq_true heq.ge) hsecond
      exact (not_pair_sublist (hperm.nodup_iff.mpr hnodup) hab hba).elim

end Sorting

abbrev Table (κ ρ : Type*) := Finmap (fun _ : κ => ρ)

namespace Table

variable {κ ρ M : Type*}

def empty : Table κ ρ := ∅

def total [AddCommMonoid M] (t : Table κ ρ) (f : κ → ρ → M) : M :=
  (t.entries.map fun e => f e.1 e.2).sum

def count (t : Table κ ρ) (p : κ → ρ → Prop) [∀ k r, Decidable (p k r)] : ℕ :=
  t.total fun k r => if p k r then 1 else 0

theorem total_empty [AddCommMonoid M] (f : κ → ρ → M) : (empty : Table κ ρ).total f = 0 := rfl

variable [DecidableEq κ]

def get (t : Table κ ρ) (k : κ) : Option ρ := t.lookup k

def put (t : Table κ ρ) (k : κ) (r : ρ) : Table κ ρ := t.insert k r

/-- Delete the row under a key, if there is one. -/
def remove (t : Table κ ρ) (k : κ) : Table κ ρ := t.erase k

def Any (t : Table κ ρ) (p : κ → ρ → Prop) : Prop :=
  ∃ k r, t.get k = some r ∧ p k r

theorem mem_entries (t : Table κ ρ) (k : κ) (r : ρ) :
    (⟨k, r⟩ : Sigma fun _ : κ => ρ) ∈ t.entries ↔ t.get k = some r :=
  Finmap.lookup_eq_some_iff.symm

theorem any_iff_entries (t : Table κ ρ) (p : κ → ρ → Prop) :
    t.Any p ↔ ∃ e ∈ t.entries, p e.1 e.2 := by
  constructor
  · rintro ⟨k, r, hk, hp⟩
    exact ⟨⟨k, r⟩, (mem_entries t k r).mpr hk, hp⟩
  · rintro ⟨⟨k, r⟩, hmem, hp⟩
    exact ⟨k, r, (mem_entries t k r).mp hmem, hp⟩

instance (t : Table κ ρ) (p : κ → ρ → Prop) [∀ k r, Decidable (p k r)] :
    Decidable (t.Any p) :=
  @decidable_of_iff _ (∃ e ∈ t.entries, p e.1 e.2) (any_iff_entries t p).symm
    (Multiset.decidableExistsMultiset (p := fun e : Sigma fun _ : κ => ρ => p e.1 e.2))

@[simp] theorem get_empty (k : κ) : (empty : Table κ ρ).get k = none :=
  Finmap.lookup_empty k

@[simp] theorem get_put_self (t : Table κ ρ) (k : κ) (r : ρ) : (t.put k r).get k = some r :=
  Finmap.lookup_insert t

theorem get_put_of_ne (t : Table κ ρ) {k k' : κ} (r : ρ) (h : k' ≠ k) :
    (t.put k r).get k' = t.get k' :=
  Finmap.lookup_insert_of_ne t h

theorem get_put (t : Table κ ρ) (k k' : κ) (r : ρ) :
    (t.put k r).get k' = if k' = k then some r else t.get k' := by
  by_cases h : k' = k
  · subst h
    simp
  · rw [if_neg h, get_put_of_ne t r h]

/-- A row of an updated table is the new row or an old one under another key. -/
theorem get_put_eq_some {t : Table κ ρ} {k k' : κ} {r r' : ρ}
    (h : (t.put k r).get k' = some r') :
    (k' = k ∧ r' = r) ∨ (k' ≠ k ∧ t.get k' = some r') := by
  by_cases hk : k' = k
  · subst hk
    rw [get_put_self, Option.some.injEq] at h
    exact Or.inl ⟨rfl, h.symm⟩
  · rw [get_put_of_ne t r hk] at h
    exact Or.inr ⟨hk, h⟩

/-- Putting a row under a fresh key loses no row. -/
theorem get_put_of_fresh {t : Table κ ρ} {k k' : κ} {r r' : ρ}
    (hfresh : t.get k = none) (h : t.get k' = some r') :
    (t.put k r).get k' = some r' := by
  rw [get_put_of_ne t r, h]
  rintro rfl
  simp [hfresh] at h

theorem get_put_cases (t : Table κ ρ) (k k' : κ) (r : ρ) :
    (t.put k r).get k' = t.get k' ∨ (k = k' ∧ (t.put k r).get k' = some r) := by
  by_cases h : k' = k
  · subst h
    exact Or.inr ⟨rfl, get_put_self _ _ _⟩
  · exact Or.inl (get_put_of_ne _ _ h)

/-- The same row put into two tables that agree at a key leaves them in agreement there. -/
theorem get_put_congr {t t' : Table κ ρ} {k : κ} (k₀ : κ) (r : ρ) (h : t'.get k = t.get k) :
    (t'.put k₀ r).get k = (t.put k₀ r).get k := by
  rw [get_put, get_put, h]

theorem isSome_put_mono {t t' : Table κ ρ} {k : κ} (k₀ : κ) (r : ρ)
    (h : (t.get k).isSome → (t'.get k).isSome) :
    ((t.put k₀ r).get k).isSome → ((t'.put k₀ r).get k).isSome := by
  rw [get_put, get_put]
  by_cases hk : k = k₀
  · simp [hk]
  · simpa [hk] using h

/-- Replacing a row makes no key. -/
theorem get_ne_none_of_put {t : Table κ ρ} {k k' : κ} {r₀ r r' : ρ}
    (hold : t.get k = some r₀) (h : (t.put k r).get k' = some r') : t.get k' ≠ none := by
  rcases get_put_eq_some h with ⟨rfl, _⟩ | ⟨_, hget⟩
  · simp [hold]
  · simp [hget]

theorem get_remove (t : Table κ ρ) (k k' : κ) :
    (t.remove k).get k' = if k' = k then none else t.get k' := by
  by_cases hk : k' = k
  · rw [if_pos hk, hk]
    exact Finmap.lookup_erase k t
  · rw [if_neg hk]
    exact Finmap.lookup_erase_ne hk

/-- A row that is left after a removal was there. -/
theorem get_of_remove {t : Table κ ρ} {k k' : κ} {r : ρ} (h : (t.remove k).get k' = some r) :
    t.get k' = some r := by
  rw [get_remove] at h
  split at h
  next => cases h
  next => exact h

theorem ext {t t' : Table κ ρ} (h : ∀ k, t.get k = t'.get k) : t = t' :=
  Finmap.ext_lookup h

/-- Putting back the row that is there changes nothing. -/
theorem put_get {t : Table κ ρ} {k : κ} {r : ρ} (h : t.get k = some r) : t.put k r = t := by
  apply ext
  intro k'
  rw [get_put]
  by_cases hk : k' = k
  · rw [if_pos hk, hk, h]
  · rw [if_neg hk]

theorem put_put (t : Table κ ρ) (k : κ) (r r' : ρ) : (t.put k r).put k r' = t.put k r' :=
  Finmap.insert_insert t

section Totals

variable [AddCommMonoid M]

/-- A fresh row adds its own figure. -/
theorem total_put_fresh {t : Table κ ρ} {k : κ} (r : ρ) (f : κ → ρ → M)
    (hfresh : t.get k = none) : (t.put k r).total f = f k r + t.total f := by
  unfold total put
  rw [Finmap.entries_insert_of_notMem (Finmap.lookup_eq_none.mp hfresh), Multiset.map_cons,
    Multiset.sum_cons]

/-- A table splits into one of its rows and the rest. -/
theorem total_eq_add_rest {t : Table κ ρ} {k : κ} {r : ρ} (f : κ → ρ → M)
    (h : t.get k = some r) : t.total f = f k r + (t.remove k).total f := by
  have hsplit : (t.remove k).put k r = t := by
    apply ext
    intro k'
    rw [get_put]
    by_cases hk : k' = k
    · rw [if_pos hk, hk, h]
    · rw [if_neg hk]
      exact Finmap.lookup_erase_ne hk
  calc
    t.total f = ((t.remove k).put k r).total f := by rw [hsplit]
    _ = f k r + (t.remove k).total f := total_put_fresh r f (Finmap.lookup_erase k t)

/-- Replacing a row exchanges its figure for the new one. -/
theorem total_put_replace {t : Table κ ρ} {k : κ} {r₀ : ρ} (r : ρ) (f : κ → ρ → M)
    (h : t.get k = some r₀) : (t.put k r).total f + f k r₀ = t.total f + f k r := by
  have herase : (t.put k r).remove k = t.remove k := by
    apply ext
    intro k'
    change Finmap.lookup k' (Finmap.erase k _) = Finmap.lookup k' (Finmap.erase k _)
    by_cases hk : k' = k
    · rw [hk, Finmap.lookup_erase, Finmap.lookup_erase]
    · rw [Finmap.lookup_erase_ne hk, Finmap.lookup_erase_ne hk]
      exact get_put_of_ne t r hk
  rw [total_eq_add_rest f (get_put_self t k r), herase, total_eq_add_rest f h]
  abel

theorem total_congr {t : Table κ ρ} {f g : κ → ρ → M}
    (h : ∀ k r, t.get k = some r → f k r = g k r) : t.total f = t.total g := by
  unfold total
  apply congrArg
  apply Multiset.map_congr rfl
  rintro ⟨k, r⟩ hmem
  exact h k r ((mem_entries t k r).mp hmem)

/-- A total to which no row contributes vanishes. -/
theorem total_eq_zero {t : Table κ ρ} {f : κ → ρ → M}
    (h : ∀ k r, t.get k = some r → f k r = 0) : t.total f = 0 := by
  rw [total_congr h]
  unfold total
  simp

/-- A total is the sum over any set of keys that covers the table. -/
theorem total_eq_sum (t : Table κ ρ) (f : κ → ρ → M) {S : Finset κ} (hS : t.keys ⊆ S) :
    t.total f = ∑ k ∈ S, (t.get k).elim 0 (f k) := by
  have hkeys : t.total f = ∑ k ∈ t.keys, (t.get k).elim 0 (f k) := by
    change _ = (Multiset.map _ t.entries.keys).sum
    unfold Multiset.keys
    rw [Multiset.map_map]
    unfold total
    apply congrArg
    apply Multiset.map_congr rfl
    rintro ⟨k, r⟩ hmem
    simp only [Function.comp_apply, (mem_entries t k r).mp hmem, Option.elim_some]
  rw [hkeys]
  apply Finset.sum_subset hS
  intro k _ hk
  have hnone : t.get k = none := Finmap.lookup_eq_none.mpr fun h => hk (Finmap.mem_keys.mpr h)
  rw [hnone]
  rfl

/-- Two tables whose rows contribute the same under every key have the same total. -/
theorem total_congr_get {t t' : Table κ ρ} {f : κ → ρ → M}
    (h : ∀ k, (t.get k).elim 0 (f k) = (t'.get k).elim 0 (f k)) : t.total f = t'.total f := by
  rw [total_eq_sum t f Finset.subset_union_left, total_eq_sum t' f Finset.subset_union_right]
  exact Finset.sum_congr rfl fun k _ => h k

end Totals

theorem total_nonneg {t : Table κ ρ} {f : κ → ρ → ℤ}
    (h : ∀ k r, t.get k = some r → 0 ≤ f k r) : 0 ≤ t.total f := by
  unfold total
  apply Multiset.sum_nonneg
  intro x hx
  obtain ⟨⟨k, r⟩, hmem, rfl⟩ := Multiset.mem_map.mp hx
  exact h k r ((mem_entries t k r).mp hmem)

section Counts

variable (p : κ → ρ → Prop) [∀ k r, Decidable (p k r)]

theorem count_put_fresh {t : Table κ ρ} {k : κ} (r : ρ) (hfresh : t.get k = none) :
    (t.put k r).count p = (if p k r then 1 else 0) + t.count p :=
  total_put_fresh r _ hfresh

/-- A count is at most another one when every row that counts has a row that counts there under
its key. -/
theorem count_le_count {t t' : Table κ ρ} {p q : κ → ρ → Prop} [∀ k r, Decidable (p k r)]
    [∀ k r, Decidable (q k r)]
    (h : ∀ k r, t'.get k = some r → p k r → ∃ r₀, t.get k = some r₀ ∧ q k r₀) :
    t'.count p ≤ t.count q := by
  unfold count
  rw [total_eq_sum t' _ Finset.subset_union_left, total_eq_sum t _ Finset.subset_union_right]
  apply Finset.sum_le_sum
  intro k _
  cases hk : t'.get k with
  | none => simp
  | some r =>
    by_cases hp : p k r
    · obtain ⟨r₀, hr₀, hq₀⟩ := h k r hk hp
      simp [hr₀, hq₀, hp]
    · simp [hp]

/-- A count does not rise when every row that counts already counted under its key. -/
theorem count_le_of_get {t t' : Table κ ρ}
    (h : ∀ k r, t'.get k = some r → p k r → ∃ r₀, t.get k = some r₀ ∧ p k r₀) :
    t'.count p ≤ t.count p :=
  count_le_count h

/-- A row that is put raises a count by one at most, and only if it counts itself. -/
theorem count_put_le (t : Table κ ρ) (k : κ) (r : ρ) :
    (t.put k r).count p ≤ t.count p + if p k r then 1 else 0 := by
  cases hk : t.get k with
  | none =>
    rw [count_put_fresh p r hk]
    omega
  | some r₀ =>
    have hreplace := total_put_replace r (fun k r => if p k r then 1 else 0) hk
    change (t.put k r).count p + _ = t.count p + _ at hreplace
    omega

/-- When only one key can carry a row that counts, the count is that row's. -/
theorem count_of_unique {t : Table κ ρ} {k : κ}
    (h : ∀ k' r, t.get k' = some r → p k' r → k' = k) :
    t.count p = (t.get k).elim 0 fun r => if p k r then 1 else 0 := by
  unfold count
  rw [total_eq_sum t _ (Finset.subset_insert k t.keys)]
  refine Finset.sum_eq_single k ?_ ?_
  · intro k' _ hne
    cases hk : t.get k' with
    | none => rfl
    | some r =>
      have hnot : ¬ p k' r := fun hp => hne (h k' r hk hp)
      simp [hnot]
  · intro hk
    exact absurd (Finset.mem_insert_self k t.keys) hk

theorem count_le_one {t : Table κ ρ} {k : κ}
    (h : ∀ k' r, t.get k' = some r → p k' r → k' = k) : t.count p ≤ 1 := by
  rw [count_of_unique p h]
  cases t.get k with
  | none => simp
  | some r =>
    rw [Option.elim_some]
    split <;> omega

theorem count_eq_zero {t : Table κ ρ} (h : ∀ k r, t.get k = some r → ¬ p k r) :
    t.count p = 0 :=
  total_eq_zero fun k r hk => if_neg (h k r hk)

end Counts

section Scans

variable {β : Type*} [LinearOrder κ] [LinearOrder β]

/-- The rows that satisfy a condition, in the order of a figure and then of their keys. -/
def scan (t : Table κ ρ) (p : κ → ρ → Prop) [∀ k r, Decidable (p k r)] (f : ρ → β) :
    List (κ × ρ) :=
  ((t.keys.sort (· ≤ ·)).filterMap fun k =>
    (t.get k).bind fun r => if p k r then some (k, r) else none).mergeSort fun a b =>
      decide (f a.2 ≤ f b.2)

variable {t : Table κ ρ} {p : κ → ρ → Prop} [∀ k r, Decidable (p k r)] {f : ρ → β}

theorem mem_scan {k : κ} {r : ρ} : (k, r) ∈ t.scan p f ↔ t.get k = some r ∧ p k r := by
  unfold scan
  rw [List.mem_mergeSort, List.mem_filterMap]
  constructor
  · rintro ⟨k', _, h⟩
    obtain ⟨r', hr', hif⟩ := Option.bind_eq_some_iff.mp h
    split at hif
    next hp =>
      cases hif
      exact ⟨hr', hp⟩
    next => cases hif
  · rintro ⟨hget, hp⟩
    have hkey : k ∈ t.keys := by
      by_contra hnot
      have hnone : t.get k = none := Finmap.lookup_eq_none.mpr fun h => hnot (Finmap.mem_keys.mpr h)
      rw [hget] at hnone
      cases hnone
    refine ⟨k, (Finset.mem_sort _).mpr hkey, ?_⟩
    rw [hget, Option.bind_some, if_pos hp]

/-- The rows of a scan are in the order of the figure and then of their keys. -/
theorem scan_pairwise :
    (t.scan p f).Pairwise fun a b => f a.2 < f b.2 ∨ f a.2 = f b.2 ∧ a.1 < b.1 := by
  refine mergeSort_stable (r := fun a b : κ × ρ => a.1 < b.1) ?_ fun a b => lt_asymm
  refine List.Pairwise.filterMap _ (fun k k' hlt row hrow row' hrow' => ?_)
    (List.sortedLT_iff_pairwise.mp (Finset.sortedLT_sort _))
  have hkey : ∀ {k : κ} {row : κ × ρ},
      ((t.get k).bind fun r => if p k r then some (k, r) else none) = some row → row.1 = k := by
    intro k row hrow
    obtain ⟨r, _, hif⟩ := Option.bind_eq_some_iff.mp hrow
    split at hif
    · cases hif
      rfl
    · cases hif
  rw [hkey hrow, hkey hrow']
  exact hlt

/-- A scan answers with at most one row a key. -/
theorem length_scan_le : (t.scan p f).length ≤ t.keys.card := by
  unfold scan
  rw [List.length_mergeSort]
  exact (List.length_filterMap_le _ _).trans_eq (Finset.length_sort _)

end Scans

end Table

end Tables
