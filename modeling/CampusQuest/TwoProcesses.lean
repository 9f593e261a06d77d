import CampusQuest.Locking

/-!
Two processes of a protocol side by side. A run of the two is built move by move, with the
private states written out; a condition on the moves is carried along, so the same rules
build runs of the guarded system.
-/

namespace Locking

open Runs

def pair {Λ : Type*} (left right : Λ) : Bool → Λ := fun b => if b then right else left

section Pair

variable {Λ : Type*} (m n m' : Λ)

theorem update_pair_left : Function.update (pair m n) false m' = pair m' n := by
  funext b
  cases b <;> rfl

theorem update_pair_right : Function.update (pair m n) true m' = pair m m' := by
  funext b
  cases b <;> rfl

end Pair

namespace Protocol

variable {σ κ Λ α : Type*} {P : Protocol σ κ Λ α} {initial : σ → Prop}
  {G : Config Bool σ Λ → Move Bool α → Prop} {s s' : σ} {m n m' : Λ}

abbrev Reaches (P : Protocol σ κ Λ α) (initial : σ → Prop)
    (G : Config Bool σ Λ → Move Bool α → Prop) (s : σ) (m n : Λ) : Prop :=
  ((P.system Bool initial).guarded G).Reach ⟨s, pair m n⟩

theorem reaches_start (hs : initial s) (hm : P.start m) (hn : P.start n) :
    P.Reaches initial G s m n := by
  refine .init ⟨hs, fun b => ?_⟩
  cases b
  · exact hm
  · exact hn

theorem free_left (h : ∀ k, P.locks m' k → ¬ P.locks n k) :
    P.Free (⟨s, pair m n⟩ : Config Bool σ Λ) false m' := by
  intro b hb k hk
  cases b
  · exact absurd rfl hb
  · exact h k hk

theorem free_right (h : ∀ k, P.locks m' k → ¬ P.locks m k) :
    P.Free (⟨s, pair m n⟩ : Config Bool σ Λ) true m' := by
  intro b hb k hk
  cases b
  · exact h k hk
  · exact absurd rfl hb

theorem Reaches.read_left (hc : P.Reaches initial G s m n) (hread : P.read m s m')
    (hfree : ∀ k, P.locks m' k → ¬ P.locks n k) (hG : G ⟨s, pair m n⟩ (false, none)) :
    P.Reaches initial G s m' n := by
  have hstep := Step.read (P := P) ⟨s, pair m n⟩ false m' hread (free_left hfree)
  rw [update_pair_left] at hstep
  exact .step hc ⟨hstep, hG⟩

theorem Reaches.read_right (hc : P.Reaches initial G s m n) (hread : P.read n s m')
    (hfree : ∀ k, P.locks m' k → ¬ P.locks m k) (hG : G ⟨s, pair m n⟩ (true, none)) :
    P.Reaches initial G s m m' := by
  have hstep := Step.read (P := P) ⟨s, pair m n⟩ true m' hread (free_right hfree)
  rw [update_pair_right] at hstep
  exact .step hc ⟨hstep, hG⟩

theorem Reaches.commit_left {a : α} (hc : P.Reaches initial G s m n)
    (hcommit : P.commit m s a m' s') (hfree : ∀ k, P.locks m' k → ¬ P.locks n k)
    (hG : G ⟨s, pair m n⟩ (false, some a)) : P.Reaches initial G s' m' n := by
  have hstep := Step.commit (P := P) ⟨s, pair m n⟩ false a m' s' hcommit (free_left hfree)
  rw [update_pair_left] at hstep
  exact .step hc ⟨hstep, hG⟩

theorem Reaches.commit_right {a : α} (hc : P.Reaches initial G s m n)
    (hcommit : P.commit n s a m' s') (hfree : ∀ k, P.locks m' k → ¬ P.locks m k)
    (hG : G ⟨s, pair m n⟩ (true, some a)) : P.Reaches initial G s' m m' := by
  have hstep := Step.commit (P := P) ⟨s, pair m n⟩ true a m' s' hcommit (free_right hfree)
  rw [update_pair_right] at hstep
  exact .step hc ⟨hstep, hG⟩

/-- The steps that led here, as a run of the processes without the condition. -/
theorem Reaches.run (initial' : σ → Prop) (hc : P.Reaches initial G s m n) :
    ∃ c l, (P.system Bool initial).init c ∧ (P.system Bool initial').Run c l ⟨s, pair m n⟩ := by
  have hreach : ((P.system Bool initial).guarded G).Reach ⟨s, pair m n⟩ := hc
  generalize (⟨s, pair m n⟩ : Config Bool σ Λ) = c' at hreach ⊢
  induction hreach with
  | init hinit => exact ⟨_, [], hinit, .nil _⟩
  | step hc hstep ih =>
    obtain ⟨c, l, hinit, hrun⟩ := ih
    exact ⟨c, _, hinit, .snoc hrun hstep.1⟩

end Protocol

end Locking
