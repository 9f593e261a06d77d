import CampusQuest.Runs
import Mathlib.Data.List.Chain

/-!
Logs of labelled steps. A log leads from one state to another when its entries are the labels
of steps between them, in order. Neighbouring entries then fit together, and the last one
has made the state that is there. One log may serve many subjects, each with the entries that
are about it.
-/

namespace Runs.System

variable {σ α : Type*} (S : System σ α)

/-- The entries are the labels of steps from one state to another. -/
inductive Logged (s : σ) : List α → σ → Prop
  | nil : Logged s [] s
  | snoc {log : List α} {t u : σ} {a : α} (hlog : Logged s log t) (hstep : S.step t a u) :
      Logged s (log ++ [a]) u

namespace Logged

variable {S} {s t : σ} {log : List α}

/-- What holds of the labels of two steps in a row holds of neighbouring entries. -/
theorem isChain {R : α → α → Prop} (h : S.Logged s log t)
    (hR : ∀ t a u b v, S.step t a u → S.step u b v → R a b) : log.IsChain R := by
  induction h with
  | nil => exact .nil
  | @snoc log t u a hlog hstep ih =>
    rw [List.isChain_append]
    refine ⟨ih, .singleton a, fun b hb a' ha' => ?_⟩
    obtain rfl : a = a' := by simpa using ha'
    cases hlog with
    | nil => cases hb
    | @snoc _ t' _ b' _ hbefore =>
      obtain rfl : b' = b := by simpa using hb
      exact hR t' b' t a u hbefore hstep

/-- The first entry is the label of a step from the start. -/
theorem head (h : S.Logged s log t) {a : α} (ha : log.head? = some a) : ∃ u, S.step s a u := by
  induction h with
  | nil => cases ha
  | @snoc log t u b hlog hstep ih =>
    cases hlog with
    | nil =>
      obtain rfl : b = a := by simpa using ha
      exact ⟨u, hstep⟩
    | @snoc log' _ _ c _ _ =>
      refine ih ?_
      rw [List.head?_append_of_ne_nil _ (by simp)] at ha
      exact ha

/-- The state is the start, or the last entry is the label of a step to it. -/
theorem getLast (h : S.Logged s log t) :
    log.getLast? = none ∧ t = s ∨ ∃ a u, log.getLast? = some a ∧ S.step u a t := by
  cases h with
  | nil => exact Or.inl ⟨rfl, rfl⟩
  | @snoc log u _ a _ hstep => exact Or.inr ⟨a, u, List.getLast?_concat, hstep⟩

end Logged

section Shared

variable {κ : Type*} [DecidableEq κ] (subject : α → κ) (start : σ)

def entriesOf (log : List α) (k : κ) : List α := log.filter fun a => subject a = k

/-- A log of many subjects: what it says of each leads to where the subject is, and it says
nothing of a subject that is not there. -/
def Shared (log : List α) (current : κ → Option σ) : Prop :=
  ∀ k, match current k with
    | some s => S.Logged start (entriesOf subject log k) s
    | none => entriesOf subject log k = []

variable {S subject start} {log : List α} {current current' : κ → Option σ}

theorem shared_nil (hnone : ∀ k, current k = none) : S.Shared subject start [] current := by
  intro k
  rw [hnone k]
  rfl

theorem Shared.logged (h : S.Shared subject start log current) {k : κ} {s : σ}
    (hk : current k = some s) : S.Logged start (entriesOf subject log k) s := by
  have hlogged := h k
  rw [hk] at hlogged
  exact hlogged

/-- Without a new entry a subject stays where it is, or comes in at the start. -/
theorem Shared.quiet (h : S.Shared subject start log current)
    (hquiet : ∀ k, current' k = current k ∨ current k = none ∧ current' k = some start) :
    S.Shared subject start log current' := by
  intro k
  have hk := h k
  rcases hquiet k with hsame | ⟨hnone, hstart⟩
  · rw [hsame]
    exact hk
  · rw [hnone] at hk
    rw [hstart, show entriesOf subject log k = [] from hk]
    exact .nil

/-- A new entry moves the subject that it is about. -/
theorem Shared.append (h : S.Shared subject start log current) {a : α} {s s' : σ}
    (hbefore : current (subject a) = some s) (hstep : S.step s a s')
    (hafter : current' (subject a) = some s')
    (hothers : ∀ k, k ≠ subject a → current' k = current k) :
    S.Shared subject start (log ++ [a]) current' := by
  intro k
  unfold entriesOf
  rw [List.filter_append]
  by_cases hk : k = subject a
  · subst hk
    rw [hafter, List.filter_cons_of_pos (by simp), List.filter_nil]
    exact .snoc (h.logged hbefore) hstep
  · rw [hothers k hk, List.filter_cons_of_neg (by simpa using Ne.symm hk), List.filter_nil,
      List.append_nil]
    exact h k

end Shared

end Runs.System
