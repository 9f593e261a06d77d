import Mathlib.Data.Finset.Card
import Mathlib.Logic.Function.Basic
import Mathlib.Logic.Function.Iterate
import Mathlib.Logic.Relation
import Mathlib.Order.Bounds.Basic
import Mathlib.Order.Iterate

/-!
Forests that are given by the parent of each node, and the set of the nodes that anchor what is
shown. A forest grows by leaves: what a new leaf is below, and nothing else, is new. The
anchored set is built by passes over the rows until nothing changes any more.
-/

namespace Forests

variable {κ : Type*}

def Below (parent : κ → Option κ) : κ → κ → Prop :=
  Relation.TransGen fun x y => parent x = some y

def Acyclic (parent : κ → Option κ) : Prop := ∀ x, ¬ Below parent x x

section Leaves

variable {parent parent' : κ → Option κ} {x y a n : κ} {o : Option κ}

theorem Below.mono (h : ∀ x y, parent x = some y → parent' x = some y)
    (hbelow : Below parent x a) : Below parent' x a :=
  Relation.TransGen.mono h _ _ hbelow

/-- A node below another one has a parent that is the other one or below it. -/
theorem below_iff : Below parent x a ↔ ∃ y, parent x = some y ∧ (y = a ∨ Below parent y a) := by
  unfold Below
  rw [Relation.TransGen.head'_iff]
  constructor
  · rintro ⟨y, hparent, hrest⟩
    exact ⟨y, hparent, (Relation.reflTransGen_iff_eq_or_transGen.mp hrest).imp Eq.symm id⟩
  · rintro ⟨y, hparent, hrest⟩
    exact ⟨y, hparent, Relation.reflTransGen_iff_eq_or_transGen.mpr (hrest.imp Eq.symm id)⟩

/-- Nothing is below a node that is nobody's parent. -/
theorem not_below_leaf (hleaf : ∀ x, parent x ≠ some n) : ¬ Below parent x n := by
  intro h
  cases h with
  | single hedge => exact hleaf x hedge
  | tail _ hedge => exact hleaf _ hedge

variable [DecidableEq κ]

/-- A new leaf is below its parent and what that is below; nothing else changes. -/
theorem below_leaf (hfresh : parent n = none) (hleaf : ∀ x, parent x ≠ some n) (ho : o ≠ some n) :
    Below (Function.update parent n o) x a ↔
      Below parent x a ∨ x = n ∧ ∃ p, o = some p ∧ (p = a ∨ Below parent p a) := by
  have hgrow : ∀ x y, parent x = some y → Function.update parent n o x = some y := by
    intro x y hxy
    have hne : x ≠ n := by
      rintro rfl
      rw [hfresh] at hxy
      cases hxy
    rw [Function.update_of_ne hne]
    exact hxy
  constructor
  · intro h
    induction h using Relation.TransGen.head_induction_on with
    | @single x hedge =>
      by_cases hx : x = n
      · subst hx
        rw [Function.update_self] at hedge
        exact Or.inr ⟨rfl, a, hedge, Or.inl rfl⟩
      · rw [Function.update_of_ne hx] at hedge
        exact Or.inl (.single hedge)
    | @head x y hedge _ ih =>
      have hy : y ≠ n := by
        rintro rfl
        by_cases hx : x = y
        · rw [hx, Function.update_self] at hedge
          exact ho hedge
        · rw [Function.update_of_ne hx] at hedge
          exact hleaf x hedge
      have hrest : Below parent y a := ih.resolve_right fun h => hy h.1
      by_cases hx : x = n
      · subst hx
        rw [Function.update_self] at hedge
        exact Or.inr ⟨rfl, y, hedge, Or.inr hrest⟩
      · rw [Function.update_of_ne hx] at hedge
        exact Or.inl (.head hedge hrest)
  · rintro (h | ⟨rfl, p, rfl, h⟩)
    · exact h.mono hgrow
    · refine below_iff.mpr ⟨p, Function.update_self .., h.imp id fun h => h.mono hgrow⟩

/-- A forest stays one when it grows by a leaf. -/
theorem acyclic_leaf (h : Acyclic parent) (hfresh : parent n = none)
    (hleaf : ∀ x, parent x ≠ some n) (ho : o ≠ some n) :
    Acyclic (Function.update parent n o) := by
  intro x hx
  rcases (below_leaf hfresh hleaf ho).mp hx with hold | ⟨rfl, p, hp, rfl | hbelow⟩
  · exact h x hold
  · exact ho hp
  · exact not_below_leaf hleaf hbelow

end Leaves

section Anchors

variable {ρ : Type*} [DecidableEq κ] (rows : List (κ × ρ)) (anchor : ρ → Bool)
  (parent : ρ → Option κ)

def visit (shown : Finset κ) (row : κ × ρ) : Finset κ :=
  if row.1 ∈ shown ∨ anchor row.2 = false then shown
  else if rows.any fun child => parent child.2 = some row.1 ∧ child.1 ∈ shown then
    insert row.1 shown
  else shown

def pass (shown : Finset κ) : Finset κ := rows.foldl (visit rows anchor parent) shown

/-- The passes from the seeds; there are no more of them that change anything than rows. -/
def closure (seed : ρ → Bool) : Finset κ :=
  (pass rows anchor parent)^[rows.length] ((rows.filter fun r => seed r.2).map Prod.fst).toFinset

variable {rows anchor parent} {seed : ρ → Bool} {shown : Finset κ} {P : κ → Prop}

theorem subset_visit (row : κ × ρ) : shown ⊆ visit rows anchor parent shown row := by
  unfold visit
  split
  · exact Finset.Subset.refl _
  · split
    · exact Finset.subset_insert _ _
    · exact Finset.Subset.refl _

theorem subset_foldl (l : List (κ × ρ)) : shown ⊆ l.foldl (visit rows anchor parent) shown := by
  induction l generalizing shown with
  | nil => exact Finset.Subset.refl _
  | cons row l ih => exact (subset_visit row).trans ih

theorem subset_closure : ((rows.filter fun r => seed r.2).map Prod.fst).toFinset ⊆
    closure rows anchor parent seed :=
  Function.id_le_iterate_of_id_le (fun _ => subset_foldl rows) rows.length _

/-- What passes from a row to an anchor that is its parent is kept by a pass. -/
theorem pass_induction (hanchor : ∀ row ∈ rows, ∀ child ∈ rows, anchor row.2 = true →
      parent child.2 = some row.1 → P child.1 → P row.1)
    (hshown : ∀ y ∈ shown, P y) : ∀ y ∈ pass rows anchor parent shown, P y := by
  have hvisit : ∀ (shown : Finset κ), (∀ y ∈ shown, P y) → ∀ row ∈ rows,
      ∀ y ∈ visit rows anchor parent shown row, P y := by
    intro shown hshown row hrow y hy
    unfold visit at hy
    split at hy
    next => exact hshown y hy
    next hout =>
      obtain ⟨_, hanchored⟩ := not_or.mp hout
      split at hy
      next hany =>
        rcases Finset.mem_insert.mp hy with rfl | hold
        · obtain ⟨child, hchild, hedge⟩ := List.any_eq_true.mp hany
          obtain ⟨hparent, hmem⟩ := of_decide_eq_true hedge
          exact hanchor row hrow child hchild (Bool.eq_true_of_not_eq_false hanchored) hparent
            (hshown child.1 hmem)
        · exact hshown y hold
      next => exact hshown y hy
  have hfoldl : ∀ (l : List (κ × ρ)), (∀ row ∈ l, row ∈ rows) → ∀ shown : Finset κ,
      (∀ y ∈ shown, P y) → ∀ y ∈ l.foldl (visit rows anchor parent) shown, P y := by
    intro l
    induction l with
    | nil => exact fun _ _ hshown => hshown
    | cons row l ih =>
      intro hl shown hshown
      exact ih (fun r hr => hl r (List.mem_cons_of_mem _ hr)) _
        (hvisit shown hshown row (hl row List.mem_cons_self))
  exact hfoldl rows (fun _ h => h) shown hshown

/-- What holds of the seeds and passes from a row to an anchor that is its parent holds of all
that is shown. -/
theorem closure_induction (hseed : ∀ row ∈ rows, seed row.2 = true → P row.1)
    (hanchor : ∀ row ∈ rows, ∀ child ∈ rows, anchor row.2 = true →
      parent child.2 = some row.1 → P child.1 → P row.1) {x : κ}
    (hx : x ∈ closure rows anchor parent seed) : P x := by
  have hiterate : ∀ n shown, (∀ y ∈ shown, P y) →
      ∀ y ∈ (pass rows anchor parent)^[n] shown, P y := by
    intro n
    induction n with
    | zero => exact fun _ hshown => hshown
    | succ n ih =>
      intro shown hshown
      rw [Function.iterate_succ_apply]
      exact ih _ (pass_induction hanchor hshown)
  refine hiterate rows.length _ (fun y hy => ?_) x hx
  obtain ⟨row, hrow, rfl⟩ := List.mem_map.mp (List.mem_toFinset.mp hy)
  obtain ⟨hmem, hseeded⟩ := List.mem_filter.mp hrow
  exact hseed row hmem hseeded

theorem mem_ids {row : κ × ρ} (hrow : row ∈ rows) : row.1 ∈ (rows.map Prod.fst).toFinset :=
  List.mem_toFinset.mpr (List.mem_map_of_mem hrow)

theorem closure_subset : closure rows anchor parent seed ⊆ (rows.map Prod.fst).toFinset :=
  fun _ hx => closure_induction (P := fun y => y ∈ (rows.map Prod.fst).toFinset)
    (fun _ hrow _ => mem_ids hrow) (fun _ hrow _ _ _ _ _ => mem_ids hrow) hx

/-- One more pass changes nothing: what an anchor needs to be shown is decided. -/
theorem pass_closure :
    pass rows anchor parent (closure rows anchor parent seed) =
      closure rows anchor parent seed := by
  by_contra hchanges
  unfold closure at hchanges
  generalize hseeds : ((rows.filter fun r => seed r.2).map Prod.fst).toFinset = seeds at hchanges
  have hgrows : ∀ k ≤ rows.length + 1, k ≤ ((pass rows anchor parent)^[k] seeds).card := by
    intro k hk
    induction k with
    | zero => exact Nat.zero_le _
    | succ k ih =>
      have hsubset : (pass rows anchor parent)^[k] seeds ⊆
          (pass rows anchor parent)^[k + 1] seeds := by
        rw [Function.iterate_succ_apply']
        exact subset_foldl rows
      have hne : (pass rows anchor parent)^[k] seeds ≠ (pass rows anchor parent)^[k + 1] seeds := by
        intro hsame
        rw [Function.iterate_succ_apply'] at hsame
        -- Once a pass changes nothing, no later one does.
        have hfixed : ∀ d, (pass rows anchor parent)^[d] ((pass rows anchor parent)^[k] seeds) =
            (pass rows anchor parent)^[k] seeds := fun d => Function.iterate_fixed hsame.symm d
        have hlater := hfixed (rows.length - k)
        rw [← Function.iterate_add_apply, Nat.sub_add_cancel (Nat.le_of_succ_le_succ hk)] at hlater
        rw [hlater, ← hsame] at hchanges
        exact hchanges rfl
      exact Nat.succ_le_of_lt ((ih (Nat.le_of_succ_le hk)).trans_lt
        (Finset.card_lt_card (hsubset.ssubset_of_ne hne)))
  have hlast := hgrows (rows.length + 1) le_rfl
  have hwithin : (pass rows anchor parent)^[rows.length + 1] seeds ⊆
      (rows.map Prod.fst).toFinset := by
    rw [Function.iterate_succ_apply', ← hseeds]
    exact pass_induction (P := fun y => y ∈ (rows.map Prod.fst).toFinset)
      (fun _ hrow _ _ _ _ _ => mem_ids hrow) closure_subset
  have hcard := (Finset.card_le_card hwithin).trans (List.toFinset_card_le _)
  rw [List.length_map] at hcard
  omega

structure Closed (rows : List (κ × ρ)) (anchor : ρ → Bool) (parent : ρ → Option κ)
    (seed : ρ → Bool) (shown : Set κ) : Prop where
  seeds : ∀ row ∈ rows, seed row.2 = true → row.1 ∈ shown
  anchors : ∀ row ∈ rows, ∀ child ∈ rows, anchor row.2 = true → parent child.2 = some row.1 →
    child.1 ∈ shown → row.1 ∈ shown

/-- A pass that changes nothing has left no anchor out whose child is in. -/
theorem closed_of_pass (hfixed : pass rows anchor parent shown = shown) {row child : κ × ρ}
    (hrow : row ∈ rows) (hchild : child ∈ rows) (hanchor : anchor row.2 = true)
    (hparent : parent child.2 = some row.1) (hin : child.1 ∈ shown) : row.1 ∈ shown := by
  obtain ⟨before, after, rfl⟩ := List.append_of_mem hrow
  rw [← hfixed]
  unfold pass
  rw [List.foldl_append]
  have hkept (l : List (κ × ρ)) (shown : Finset κ) :
      shown ⊆ l.foldl (visit (before ++ row :: after) anchor parent) shown := subset_foldl l
  refine hkept after _ ?_
  generalize hreached : before.foldl (visit (before ++ row :: after) anchor parent) shown = reached
  have hin' : child.1 ∈ reached := hreached ▸ hkept before shown hin
  unfold visit
  split
  next h => exact h.resolve_right (by rw [hanchor]; exact Bool.noConfusion)
  next =>
    have hany : ((before ++ row :: after).any fun child =>
        parent child.2 = some row.1 ∧ child.1 ∈ reached) = true :=
      List.any_eq_true.mpr ⟨child, hchild, decide_eq_true ⟨hparent, hin'⟩⟩
    rw [if_pos hany]
    exact Finset.mem_insert_self _ _

/-- What the passes build is the least set that is closed. -/
theorem closure_least : IsLeast {shown | Closed rows anchor parent seed shown}
    (closure rows anchor parent seed : Set κ) := by
  constructor
  · refine ⟨fun row hrow hseed => ?_, fun row hrow child hchild hanchor hparent hin => ?_⟩
    · exact subset_closure (List.mem_toFinset.mpr
        (List.mem_map.mpr ⟨row, List.mem_filter.mpr ⟨hrow, hseed⟩, rfl⟩))
    · exact closed_of_pass pass_closure hrow hchild hanchor hparent hin
  · intro shown hclosed x hx
    exact closure_induction (P := fun y => y ∈ shown) hclosed.seeds hclosed.anchors hx

def Anchored (rows : List (κ × ρ)) (anchor : ρ → Bool) (parent : ρ → Option κ) (x y : κ) : Prop :=
  ∃ row ∈ rows, row.1 = x ∧ anchor row.2 = true ∧
    ∃ child ∈ rows, child.1 = y ∧ parent child.2 = some x

/-- A node is shown when a chain of anchors leads from it down to a seed. -/
theorem mem_closure_iff {x : κ} : x ∈ closure rows anchor parent seed ↔
    (∃ leaf ∈ rows, leaf.1 = x ∧ seed leaf.2 = true) ∨
      ∃ leaf ∈ rows, seed leaf.2 = true ∧
        Relation.TransGen (Anchored rows anchor parent) x leaf.1 := by
  have hclosed : Closed rows anchor parent seed ↑(closure rows anchor parent seed) :=
    closure_least.1
  constructor
  · refine closure_induction (P := fun x => (∃ leaf ∈ rows, leaf.1 = x ∧ seed leaf.2 = true) ∨
      ∃ leaf ∈ rows, seed leaf.2 = true ∧
        Relation.TransGen (Anchored rows anchor parent) x leaf.1) ?_ ?_
    · exact fun row hrow hseed => Or.inl ⟨row, hrow, rfl, hseed⟩
    · rintro row hrow child hchild hanchor hparent hbelow
      have hedge : Anchored rows anchor parent row.1 child.1 :=
        ⟨row, hrow, rfl, hanchor, child, hchild, rfl, hparent⟩
      rcases hbelow with ⟨leaf, hleaf, hsame, hseed⟩ | ⟨leaf, hleaf, hseed, hchain⟩
      · exact Or.inr ⟨leaf, hleaf, hseed, hsame ▸ .single hedge⟩
      · exact Or.inr ⟨leaf, hleaf, hseed, .head hedge hchain⟩
  · rintro (⟨leaf, hleaf, rfl, hseed⟩ | ⟨leaf, hleaf, hseed, hchain⟩)
    · exact hclosed.seeds leaf hleaf hseed
    · have hend : leaf.1 ∈ closure rows anchor parent seed := hclosed.seeds leaf hleaf hseed
      -- The chain is climbed from the seed up.
      induction hchain using Relation.TransGen.head_induction_on with
      | single hedge =>
        obtain ⟨row, hrow, rfl, hanchor, child, hchild, hsame, hparent⟩ := hedge
        exact hclosed.anchors row hrow child hchild hanchor hparent (hsame ▸ hend)
      | head hedge _ ih =>
        obtain ⟨row, hrow, rfl, hanchor, child, hchild, hsame, hparent⟩ := hedge
        exact hclosed.anchors row hrow child hchild hanchor hparent (hsame ▸ ih)

section Loop

variable (rows anchor parent)

def visitNoting (state : Finset κ × Bool) (row : κ × ρ) : Finset κ × Bool :=
  if row.1 ∈ state.1 ∨ anchor row.2 = false then state
  else if rows.any fun child => parent child.2 = some row.1 ∧ child.1 ∈ state.1 then
    (insert row.1 state.1, true)
  else state

/-- Passes for as long as the last one changed anything. -/
def settle : ℕ → Finset κ → Option (Finset κ)
  | 0, _ => none
  | fuel + 1, shown =>
    let next := rows.foldl (visitNoting rows anchor parent) (shown, false)
    if next.2 = true then settle fuel next.1 else some next.1

variable {rows anchor parent}

theorem visitNoting_eq (changed : Bool) (row : κ × ρ) :
    visitNoting rows anchor parent (shown, changed) row =
      (visit rows anchor parent shown row,
        changed || decide (visit rows anchor parent shown row ≠ shown)) := by
  unfold visitNoting visit
  dsimp only
  split
  next => simp
  next hout =>
    split
    next =>
      have hnew : insert row.1 shown ≠ shown := fun h =>
        (not_or.mp hout).1 (h ▸ Finset.mem_insert_self row.1 shown)
      simp [hnew]
    next => simp

theorem foldl_visitNoting (l : List (κ × ρ)) (shown : Finset κ) (changed : Bool) :
    l.foldl (visitNoting rows anchor parent) (shown, changed) =
      (l.foldl (visit rows anchor parent) shown,
        changed || decide (l.foldl (visit rows anchor parent) shown ≠ shown)) := by
  induction l generalizing shown changed with
  | nil => simp
  | cons row l ih =>
    rw [List.foldl_cons, visitNoting_eq, ih, List.foldl_cons, Bool.or_assoc]
    refine congrArg _ (congrArg _ ?_)
    rw [← Bool.decide_or, decide_eq_decide, ← not_and_or, not_iff_not]
    constructor
    · rintro ⟨hvisit, hrest⟩
      exact hrest.trans hvisit
    · intro hsame
      -- What joined would have stayed.
      have hvisit : visit rows anchor parent shown row = shown :=
        Finset.Subset.antisymm ((subset_foldl l).trans hsame.subset) (subset_visit row)
      exact ⟨hvisit, hsame.trans hvisit.symm⟩

theorem settle_succ (fuel : ℕ) : settle rows anchor parent (fuel + 1) shown =
    if pass rows anchor parent shown = shown then some shown
    else settle rows anchor parent fuel (pass rows anchor parent shown) := by
  have hpass : rows.foldl (visitNoting rows anchor parent) (shown, false) =
      (pass rows anchor parent shown, decide (pass rows anchor parent shown ≠ shown)) := by
    rw [foldl_visitNoting, Bool.false_or]
    rfl
  rw [settle, hpass]
  dsimp only
  by_cases h : pass rows anchor parent shown = shown
  · rw [if_pos h, if_neg (by simpa using h), h]
  · rw [if_neg h, if_pos (by simpa using h)]

theorem settle_iterate {k fuel : ℕ} (hfuel : k < fuel)
    (hfixed : pass rows anchor parent ((pass rows anchor parent)^[k] shown) =
      (pass rows anchor parent)^[k] shown) :
    settle rows anchor parent fuel shown = some ((pass rows anchor parent)^[k] shown) := by
  induction k generalizing fuel shown with
  | zero =>
    obtain ⟨fuel, rfl⟩ := Nat.exists_eq_add_of_lt hfuel
    rw [Function.iterate_zero, id] at hfixed
    rw [Nat.zero_add, settle_succ, if_pos hfixed]
    rfl
  | succ k ih =>
    obtain ⟨fuel, rfl⟩ := Nat.exists_eq_add_of_lt hfuel
    rw [settle_succ]
    by_cases hsame : pass rows anchor parent shown = shown
    · rw [if_pos hsame, Function.iterate_fixed hsame]
    · rw [if_neg hsame, Function.iterate_succ_apply]
      exact ih (by omega) hfixed

/-- The loop ends with one pass more than there are rows at the latest. -/
theorem settle_closure {fuel : ℕ} (hfuel : rows.length < fuel) :
    settle rows anchor parent fuel ((rows.filter fun r => seed r.2).map Prod.fst).toFinset =
      some (closure rows anchor parent seed) :=
  settle_iterate hfuel pass_closure

end Loop

section Relabelled

variable {g : κ × ρ → κ × ρ} (hkey : ∀ row ∈ rows, (g row).1 = row.1)
  (hanchor : ∀ row ∈ rows, anchor (g row).2 = anchor row.2)
  (hparent : ∀ row ∈ rows, parent (g row).2 = parent row.2)

include hkey hanchor hparent

theorem visit_map {row : κ × ρ} (hrow : row ∈ rows) :
    visit (rows.map g) anchor parent shown (g row) = visit rows anchor parent shown row := by
  have hchildren : ((rows.map g).any fun child => parent child.2 = some (g row).1 ∧
      child.1 ∈ shown) = rows.any fun child => parent child.2 = some row.1 ∧ child.1 ∈ shown := by
    rw [List.any_map, Bool.eq_iff_iff, List.any_eq_true, List.any_eq_true]
    refine exists_congr fun child => and_congr_right fun hchild => ?_
    dsimp only [Function.comp_apply]
    rw [hparent child hchild, hkey child hchild, hkey row hrow]
  unfold visit
  rw [hchildren, hkey row hrow, hanchor row hrow]

theorem pass_map : pass (rows.map g) anchor parent = pass rows anchor parent := by
  funext shown
  unfold pass
  rw [List.foldl_map]
  exact List.foldl_ext _ _ _ fun shown row hrow => visit_map hkey hanchor hparent hrow

/-- What is shown depends on the rows only through their keys, their parents and what they are. -/
theorem closure_map (hseed : ∀ row ∈ rows, seed (g row).2 = seed row.2) :
    closure (rows.map g) anchor parent seed = closure rows anchor parent seed := by
  have hseeds : ((rows.map g).filter fun r => seed r.2).map Prod.fst =
      (rows.filter fun r => seed r.2).map Prod.fst := by
    rw [List.filter_map, List.map_map]
    have hfilter : (rows.filter ((fun r => seed r.2) ∘ g)) = rows.filter fun r => seed r.2 :=
      List.filter_congr fun row hrow => hseed row hrow
    rw [hfilter]
    exact List.map_congr_left fun row hrow => hkey row (List.mem_filter.mp hrow).1
  unfold closure
  rw [hseeds, pass_map hkey hanchor hparent, List.length_map]

end Relabelled

end Anchors

end Forests
