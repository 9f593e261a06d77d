import Mathlib.Algebra.GroupWithZero.Nat
import Mathlib.Data.List.Dedup
import Mathlib.Data.List.Sort

/-!
Groups of a list and their first members. The members of a group are numbered in the order of a
key, as a window over a partition numbers its rows, and the members of number one are one a
group, each the least of its group.
-/

namespace Groups

variable {α κ β : Type*} [LinearOrder β]

section Windows

variable [DecidableEq κ] (group : α → κ) (key : α → β) (l : List α)

def members (k : κ) : List α :=
  (l.filter fun a => group a = k).insertionSort fun a b => key a ≤ key b

def numbered : List (α × ℕ) :=
  (l.map group).dedup.flatMap fun k => (members group key l k).zipIdx 1

def firsts : List α := ((numbered group key l).filter fun a => a.2 = 1).map Prod.fst

/-- The members of a group that satisfy a condition, as a sum of ones and zeros. -/
def countWhere (p : α → Prop) [DecidablePred p] (k : κ) : ℕ :=
  ((l.filter fun a => group a = k).map fun a => if p a then 1 else 0).sum

variable {group key l} {a b : α} {k : κ}

theorem mem_members : a ∈ members group key l k ↔ a ∈ l ∧ group a = k := by
  unfold members
  rw [List.mem_insertionSort, List.mem_filter, decide_eq_true_iff]

theorem members_head (h : (members group key l k).head? = some a) :
    a ∈ l ∧ group a = k ∧ ∀ b ∈ l, group b = k → key a ≤ key b := by
  obtain ⟨hl, hgroup⟩ := mem_members.mp (List.mem_of_mem_head? h)
  refine ⟨hl, hgroup, fun b hb hk => ?_⟩
  have hsorted : (members group key l k).Pairwise fun a b => key a ≤ key b :=
    List.pairwise_insertionSort (fun a b => key a ≤ key b) _
  have hmem : b ∈ members group key l k := mem_members.mpr ⟨hb, hk⟩
  obtain ⟨t, ht⟩ := List.head?_eq_some_iff.mp h
  rw [ht] at hsorted hmem
  rcases List.mem_cons.mp hmem with rfl | hmem
  · exact le_refl _
  · exact List.rel_of_pairwise_cons hsorted hmem

theorem members_ne_nil (hk : k ∈ l.map group) : members group key l k ≠ [] := by
  obtain ⟨a, ha, hgroup⟩ := List.mem_map.mp hk
  exact List.ne_nil_of_mem (mem_members.mpr ⟨ha, hgroup⟩)

theorem filter_numbered_one (l : List α) :
    ((l.zipIdx 1).filter fun a => a.2 = 1).map Prod.fst = l.head?.toList := by
  cases l with
  | nil => rfl
  | cons a l =>
    have hlater : (l.zipIdx 2).filter (fun a => decide (a.2 = 1)) = [] := by
      refine List.filter_eq_nil_iff.mpr fun x hx hone => ?_
      have hle : 2 ≤ x.2 := List.le_snd_of_mem_zipIdx hx
      have hone : x.2 = 1 := of_decide_eq_true hone
      omega
    rw [List.zipIdx_cons, List.filter_cons_of_pos (by rfl), hlater]
    rfl

theorem firsts_eq :
    firsts group key l = (l.map group).dedup.flatMap fun k =>
      (members group key l k).head?.toList := by
  unfold firsts numbered
  rw [List.filter_flatMap, List.map_flatMap]
  congr 1
  funext k
  exact filter_numbered_one _

theorem mem_firsts :
    a ∈ firsts group key l ↔ (members group key l (group a)).head? = some a := by
  rw [firsts_eq, List.mem_flatMap]
  constructor
  · rintro ⟨k, _, ha⟩
    have ha : (members group key l k).head? = some a := Option.mem_toList.mp ha
    obtain ⟨_, rfl, _⟩ := members_head ha
    exact ha
  · intro ha
    refine ⟨group a, List.mem_dedup.mpr (List.mem_map_of_mem (members_head ha).1), ?_⟩
    exact Option.mem_toList.mpr ha

theorem mem_of_first (h : a ∈ firsts group key l) : a ∈ l := (members_head (mem_firsts.mp h)).1

theorem first_le (h : a ∈ firsts group key l) (hb : b ∈ l) (hgroup : group b = group a) :
    key a ≤ key b := (members_head (mem_firsts.mp h)).2.2 b hb hgroup

theorem map_firsts : (firsts group key l).map group = (l.map group).dedup := by
  rw [firsts_eq, List.map_flatMap]
  refine Eq.trans (List.flatMap_congr fun k hk => ?_) (List.flatMap_singleton' _)
  obtain ⟨a, ha⟩ := Option.ne_none_iff_exists'.mp
    (mt List.head?_eq_none_iff.mp (@members_ne_nil _ _ _ _ _ group key l k (List.mem_dedup.mp hk)))
  rw [ha]
  exact congrArg (fun k => [k]) (members_head ha).2.1

theorem nodup_firsts : ((firsts group key l).map group).Nodup := by
  rw [map_firsts]
  exact List.nodup_dedup _

theorem countWhere_eq (p : α → Prop) [DecidablePred p] :
    countWhere group l p k = (l.filter fun a => group a = k ∧ p a).length := by
  unfold countWhere
  induction l with
  | nil => rfl
  | cons a l ih =>
    by_cases hgroup : group a = k
    · by_cases hp : p a
      · simp [hgroup, hp, ih, Nat.add_comm]
      · simp [hgroup, hp, ih]
    · simp [hgroup, ih]

/-- Where each group has one member, a member is all of its group. -/
theorem filter_group_eq (h : (l.map group).Nodup) (ha : a ∈ l) :
    l.filter (fun b => group b = group a) = [a] := by
  induction l with
  | nil => cases ha
  | cons b l ih =>
    rw [List.map_cons, List.nodup_cons] at h
    rcases List.mem_cons.mp ha with rfl | ha
    · have hothers : l.filter (fun b => decide (group b = group a)) = [] := by
        refine List.filter_eq_nil_iff.mpr fun b hb heq => h.1 ?_
        rw [← of_decide_eq_true heq]
        exact List.mem_map_of_mem hb
      simp [hothers]
    · have hne : group b ≠ group a := fun heq => h.1 (by rw [heq]; exact List.mem_map_of_mem ha)
      simp [hne, ih h.2 ha]

end Windows

section Pages

def descending (key : α → β) (l : List α) : List α := l.insertionSort fun a b => key b ≤ key a

def page {α : Type*} (limit offset : ℕ) (l : List α) : List α := (l.drop offset).take limit

variable {key : α → β} {l : List α} {a : α}

theorem mem_descending : a ∈ descending key l ↔ a ∈ l := List.mem_insertionSort _

theorem mem_of_mem_page {limit offset : ℕ} (h : a ∈ page limit offset l) : a ∈ l :=
  List.mem_of_mem_drop (List.mem_of_mem_take h)

end Pages

end Groups
