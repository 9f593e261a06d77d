import CampusQuest.Tables

/-!
Statements over many rows: an update and a delete with a condition, and the row that a
select on a unique column finds. Each is described by what it leaves or finds under every
key, so a reader of the table needs no order of the rows.
-/

namespace Tables

namespace Table

variable {κ ρ : Type*} [DecidableEq κ]

/-- `UPDATE ... SET`: every row is rewritten in place. -/
def mapRows (t : Table κ ρ) (f : κ → ρ → ρ) : Table κ ρ where
  entries := t.entries.map fun e => ⟨e.1, f e.1 e.2⟩
  nodupKeys := by
    have hkeys : (t.entries.map fun e => (⟨e.1, f e.1 e.2⟩ : Sigma fun _ : κ => ρ)).keys =
        t.entries.keys := by
      unfold Multiset.keys
      rw [Multiset.map_map]
      rfl
    have hnodup : t.entries.keys.Nodup := Multiset.nodup_keys.mpr t.nodupKeys
    rw [← hkeys] at hnodup
    exact Multiset.nodup_keys.mp hnodup

def deleteWhere (t : Table κ ρ) (p : κ → ρ → Prop) [∀ k r, Decidable (p k r)] : Table κ ρ where
  entries := t.entries.filter fun e => ¬ p e.1 e.2
  nodupKeys := by
    have hnodup : t.entries.keys.Nodup := Multiset.nodup_keys.mpr t.nodupKeys
    have hle : (t.entries.filter fun e => ¬ p e.1 e.2).keys ≤ t.entries.keys :=
      Multiset.map_le_map (Multiset.filter_le _ _)
    exact Multiset.nodup_keys.mp (Multiset.nodup_of_le hle hnodup)

def updateWhere (t : Table κ ρ) (p : κ → ρ → Prop) [∀ k r, Decidable (p k r)] (f : ρ → ρ) :
    Table κ ρ :=
  t.mapRows fun k r => if p k r then f r else r

def insertRows (t : Table κ ρ) (rows : List (κ × ρ)) : Table κ ρ :=
  rows.foldl (fun t e => t.put e.1 e.2) t

variable {t : Table κ ρ}

/-- Rows under fresh keys join the others. -/
theorem get_insertRows {rows : List (κ × ρ)} (hfresh : ∀ e ∈ rows, t.get e.1 = none)
    (hkeys : (rows.map Prod.fst).Nodup) {k : κ} {r : ρ} :
    (t.insertRows rows).get k = some r ↔ t.get k = some r ∨ (k, r) ∈ rows := by
  induction rows generalizing t with
  | nil => simp [insertRows]
  | cons e rows ih =>
    obtain ⟨k₀, r₀⟩ := e
    obtain ⟨hnew, hkeys⟩ := List.nodup_cons.mp hkeys
    have hnew : ∀ e ∈ rows, e.1 ≠ k₀ :=
      fun e he heq => hnew (List.mem_map.mpr ⟨e, he, heq⟩)
    have hnone : t.get k₀ = none := hfresh _ List.mem_cons_self
    have hothers : ∀ e ∈ rows, (t.put k₀ r₀).get e.1 = none := by
      intro e he
      rw [get_put_of_ne _ _ (hnew e he)]
      exact hfresh e (List.mem_cons_of_mem _ he)
    refine (ih hothers hkeys).trans ?_
    by_cases hk : k = k₀
    · subst hk
      have habsent : (k, r) ∉ rows := fun hmem => hnew _ hmem rfl
      rw [get_put_self, hnone]
      simp [habsent, eq_comm]
    · rw [get_put_of_ne _ _ hk]
      simp [hk]

theorem get_mapRows (f : κ → ρ → ρ) (k : κ) : (t.mapRows f).get k = (t.get k).map (f k) := by
  cases hk : t.get k with
  | some r =>
    have hmem : (⟨k, r⟩ : Sigma fun _ : κ => ρ) ∈ t.entries := (mem_entries t k r).mpr hk
    exact (mem_entries _ _ _).mp (Multiset.mem_map_of_mem _ hmem)
  | none =>
    cases hnew : (t.mapRows f).get k with
    | none => rfl
    | some r =>
      obtain ⟨⟨k', r'⟩, hmem, heq⟩ := Multiset.mem_map.mp ((mem_entries _ _ _).mpr hnew)
      obtain ⟨rfl, _⟩ := Sigma.mk.inj_iff.mp heq
      have hold := (mem_entries t k' r').mp hmem
      rw [hk] at hold
      cases hold

variable {p : κ → ρ → Prop} [∀ k r, Decidable (p k r)]

theorem get_updateWhere (f : ρ → ρ) (k : κ) :
    (t.updateWhere p f).get k = (t.get k).map fun r => if p k r then f r else r :=
  get_mapRows _ k

theorem get_deleteWhere_eq_some {k : κ} {r : ρ} :
    (t.deleteWhere p).get k = some r ↔ t.get k = some r ∧ ¬ p k r := by
  rw [← mem_entries, ← mem_entries]
  exact Multiset.mem_filter

/-- An update that finds no row changes nothing. -/
theorem updateWhere_eq_self (f : ρ → ρ) (h : ∀ k r, t.get k = some r → ¬ p k r) :
    t.updateWhere p f = t := by
  apply ext
  intro k
  rw [get_updateWhere]
  cases hk : t.get k with
  | none => rfl
  | some r => rw [Option.map_some, if_neg (h k r hk)]

/-- An update that leaves the table as it was has found no row that it changes. -/
theorem of_updateWhere_eq_self {f : ρ → ρ} (hchange : ∀ k r, p k r → f r ≠ r)
    (h : t.updateWhere p f = t) {k : κ} {r : ρ} (hk : t.get k = some r) : ¬ p k r := by
  intro hp
  have hget := get_updateWhere (t := t) (p := p) f k
  rw [h, hk, Option.map_some, if_pos hp, Option.some.injEq] at hget
  exact hchange k r hp hget.symm

section Keys

theorem mem_keys_iff {k : κ} : k ∈ t.keys ↔ (t.get k).isSome :=
  Finmap.mem_keys.trans Finmap.lookup_isSome.symm

theorem keys_put (k : κ) (r : ρ) : (t.put k r).keys = insert k t.keys := by
  ext k'
  rw [Finset.mem_insert, mem_keys_iff, mem_keys_iff, get_put]
  by_cases hk : k' = k
  · simp [hk]
  · simp [hk]

theorem card_put_fresh {k : κ} (r : ρ) (h : t.get k = none) :
    (t.put k r).keys.card = t.keys.card + 1 := by
  rw [keys_put, Finset.card_insert_of_notMem]
  rw [mem_keys_iff, h]
  simp

theorem card_put_replace {k : κ} {r₀ : ρ} (r : ρ) (h : t.get k = some r₀) :
    (t.put k r).keys.card = t.keys.card := by
  rw [keys_put, Finset.insert_eq_of_mem]
  rw [mem_keys_iff, h]
  rfl

theorem keys_mapRows (g : κ → ρ → ρ) : (t.mapRows g).keys = t.keys := by
  ext k
  rw [mem_keys_iff, mem_keys_iff, get_mapRows, Option.isSome_map]

end Keys

section Find

variable {κ β : Type*} [LinearOrder κ] [LinearOrder β] {t : Table κ ρ} {p : κ → ρ → Prop}
  [∀ k r, Decidable (p k r)] {f : ρ → β}

/-- A scan of rewritten rows, when the condition and the figure do not see the difference. -/
theorem scan_mapRows {g : κ → ρ → ρ} {q : κ → ρ → Prop} [∀ k r, Decidable (q k r)]
    (hcondition : ∀ k r, t.get k = some r → (q k (g k r) ↔ p k r))
    (hfigure : ∀ k r, t.get k = some r → f (g k r) = f r) :
    (t.mapRows g).scan q f = (t.scan p f).map fun e => (e.1, g e.1 e.2) := by
  have hrows : ((t.keys.sort (· ≤ ·)).filterMap fun k =>
      ((t.mapRows g).get k).bind fun r => if q k r then some (k, r) else none) =
      ((t.keys.sort (· ≤ ·)).filterMap fun k =>
        (t.get k).bind fun r => if p k r then some (k, r) else none).map
          fun e => (e.1, g e.1 e.2) := by
    rw [List.map_filterMap]
    refine List.filterMap_congr fun k _ => ?_
    rw [get_mapRows]
    cases hget : t.get k with
    | none => rfl
    | some r =>
      rw [Option.map_some, Option.bind_some, Option.bind_some]
      by_cases hp : p k r
      · rw [if_pos ((hcondition k r hget).mpr hp), if_pos hp]
        rfl
      · rw [if_neg fun hq => hp ((hcondition k r hget).mp hq), if_neg hp]
        rfl
  have hget : ∀ e ∈ (t.keys.sort (· ≤ ·)).filterMap (fun k =>
      (t.get k).bind fun r => if p k r then some (k, r) else none), t.get e.1 = some e.2 := by
    rintro ⟨k, r⟩ he
    have hscan : (k, r) ∈ t.scan p f := List.mem_mergeSort.mpr he
    exact (mem_scan.mp hscan).1
  unfold scan
  rw [keys_mapRows, hrows]
  refine (List.map_mergeSort fun a ha b hb => ?_).symm
  rw [hfigure a.1 a.2 (hget a ha), hfigure b.1 b.2 (hget b hb)]

/-- When only one row can satisfy the condition, it is the first one in any order. -/
theorem head_scan_eq {k : κ} {r : ρ} (hk : t.get k = some r) (hp : p k r)
    (hunique : ∀ k' r', t.get k' = some r' → p k' r' → k' = k) :
    (t.scan p f).head? = some (k, r) := by
  cases hhead : (t.scan p f).head? with
  | none =>
    have hmem : (k, r) ∈ t.scan p f := mem_scan.mpr ⟨hk, hp⟩
    rw [List.head?_eq_none_iff.mp hhead] at hmem
    cases hmem
  | some found =>
    obtain ⟨k', r'⟩ := found
    obtain ⟨hk', hp'⟩ := mem_scan.mp (List.mem_of_mem_head? hhead)
    obtain rfl := hunique k' r' hk' hp'
    rw [hk] at hk'
    rw [Option.some.inj hk']

/-- `SELECT ... WHERE` on a unique column: the first row that satisfies the condition. -/
def find (t : Table κ ρ) (p : κ → ρ → Prop) [∀ k r, Decidable (p k r)] : Option (κ × ρ) :=
  (t.scan p fun _ => 0).head?

theorem find_some {k : κ} {r : ρ} (h : t.find p = some (k, r)) : t.get k = some r ∧ p k r := by
  have hmem : (k, r) ∈ t.scan p fun _ => 0 := List.mem_of_mem_head? h
  exact mem_scan.mp hmem

theorem find_none (h : t.find p = none) {k : κ} {r : ρ} (hk : t.get k = some r) : ¬ p k r := by
  intro hp
  have hmem : (k, r) ∈ t.scan p fun _ => 0 := mem_scan.mpr ⟨hk, hp⟩
  rw [List.head?_eq_none_iff.mp h] at hmem
  cases hmem

theorem find_eq_none (h : ∀ k r, t.get k = some r → ¬ p k r) : t.find p = none := by
  cases hfind : t.find p with
  | none => rfl
  | some found =>
    obtain ⟨k, r⟩ := found
    obtain ⟨hk, hp⟩ := find_some hfind
    exact absurd hp (h k r hk)

/-- When only one row can satisfy the condition, it is the one that is found. -/
theorem find_eq {k : κ} {r : ρ} (hk : t.get k = some r) (hp : p k r)
    (hunique : ∀ k' r', t.get k' = some r' → p k' r' → k' = k) : t.find p = some (k, r) :=
  head_scan_eq hk hp hunique

end Find

end Table

end Tables
