import Mathlib.Logic.Relation
import Mathlib.Data.Nat.Notation

/-!
Chains of generations. A partial function sends an element to the one that replaced it.
Two elements are of one lineage when replacements connect them; since an element is
replaced at most once, they then have a common descendant, so a lineage has at most one
tip. A rank that grows along every replacement excludes cycles and bounds the walk.
-/

namespace Generations

open Relation

variable {α : Type*} (next : α → Option α)

def Replaces (a b : α) : Prop := next a = some b

def Descends : α → α → Prop := ReflTransGen (Replaces next)

def Lineage : α → α → Prop := EqvGen (Replaces next)

def Tip (a : α) : Prop := next a = none

def follow : ℕ → α → Option α
  | fuel, a =>
    match next a with
    | none => some a
    | some b =>
      match fuel with
      | 0 => none
      | fuel + 1 => follow fuel b

variable {next}

theorem rightUnique : Relator.RightUnique (Replaces next) := by
  intro a b c hb hc
  unfold Replaces at hb hc
  rw [hb, Option.some.injEq] at hc
  exact hc

theorem Tip.eq_of_descends {a b : α} (ha : Tip next a) (h : Descends next a b) : a = b := by
  rcases ReflTransGen.cases_head h with heq | ⟨c, hc, _⟩
  · exact heq
  · unfold Replaces Tip at *
    rw [ha] at hc
    cases hc

/-- A tip below an element is below each of its descendants. -/
theorem Tip.descends_of_descends {a b t : α} (ht : Tip next t) (hat : Descends next a t)
    (hab : Descends next a b) : Descends next b t := by
  rcases ReflTransGen.total_of_right_unique rightUnique hab hat with hbt | htb
  · exact hbt
  · rw [ht.eq_of_descends htb]
    exact .refl

/-- Two elements of one lineage have a common descendant. -/
theorem Lineage.join {a b : α} (h : Lineage next a b) :
    ∃ c, Descends next a c ∧ Descends next b c := by
  have hdiamond : ∀ a b c, Replaces next a b → Replaces next a c →
      ∃ d, ReflGen (Replaces next) b d ∧ ReflTransGen (Replaces next) c d := by
    intro a b c hb hc
    rw [rightUnique hb hc]
    exact ⟨c, .refl, .refl⟩
  have hle : Replaces next ≤ Join (ReflTransGen (Replaces next)) := by
    intro x y hxy
    exact ⟨y, .single hxy, .refl⟩
  have hjoin := EqvGen.mono hle _ _ h
  rw [(equivalence_join_reflTransGen hdiamond).eqvGen_iff] at hjoin
  exact hjoin

/-- A lineage that ends in a tip ends there from every member. -/
theorem Lineage.descends_tip {a b t : α} (h : Lineage next a b) (ht : Tip next t)
    (hat : Descends next a t) : Descends next b t := by
  obtain ⟨c, hac, hbc⟩ := h.join
  exact hbc.trans (ht.descends_of_descends hat hac)

theorem Lineage.tip_unique {a b : α} (h : Lineage next a b) (ha : Tip next a)
    (hb : Tip next b) : a = b := by
  have hba : Descends next b a := h.descends_tip ha .refl
  exact (hb.eq_of_descends hba).symm

section Ranked

variable {rank : α → ℕ}

theorem rank_lt_of_transGen (hrank : ∀ a b, Replaces next a b → rank a < rank b) {a b : α}
    (h : TransGen (Replaces next) a b) : rank a < rank b := by
  induction h with
  | single hstep => exact hrank _ _ hstep
  | tail _ hstep ih => exact Nat.lt_trans ih (hrank _ _ hstep)

/-- A ranked chain has no cycle. -/
theorem acyclic (hrank : ∀ a b, Replaces next a b → rank a < rank b) (a : α) :
    ¬ TransGen (Replaces next) a a :=
  fun h => Nat.lt_irrefl _ (rank_lt_of_transGen hrank h)

end Ranked

theorem follow_some {fuel : ℕ} {a t : α} (h : follow next fuel a = some t) :
    Descends next a t ∧ Tip next t := by
  induction fuel generalizing a with
  | zero =>
    unfold follow at h
    cases ha : next a with
    | none =>
      simp only [ha, Option.some.injEq] at h
      subst h
      exact ⟨.refl, ha⟩
    | some b => simp [ha] at h
  | succ fuel ih =>
    unfold follow at h
    cases ha : next a with
    | none =>
      simp only [ha, Option.some.injEq] at h
      subst h
      exact ⟨.refl, ha⟩
    | some b =>
      simp only [ha] at h
      obtain ⟨hdesc, htip⟩ := ih h
      exact ⟨.head ha hdesc, htip⟩

/-- The walk ends when its fuel covers the ranks that are left below a bound. -/
theorem follow_isSome {rank : α → ℕ} {bound : ℕ}
    (hrank : ∀ a b, Replaces next a b → rank a < rank b ∧ rank b < bound) (fuel : ℕ) (a : α)
    (hfuel : bound ≤ rank a + fuel + 1) : (follow next fuel a).isSome := by
  induction fuel generalizing a with
  | zero =>
    unfold follow
    cases ha : next a with
    | none => rfl
    | some b =>
      have hb := hrank a b ha
      omega
  | succ fuel ih =>
    unfold follow
    cases ha : next a with
    | none => rfl
    | some b =>
      have hb := hrank a b ha
      exact ih b (by omega)

end Generations
