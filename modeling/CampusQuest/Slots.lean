import CampusQuest.Runs
import Mathlib.Logic.Function.Basic

/-!
A board of slots. A slot is free, taken or closed, a holder holds at most one slot on behalf
of an owner, and an owner has at most one holder. Slots and holders are recorded apart; the
invariant says that the two records agree.
-/

namespace Slots

open Runs

inductive Phase
  | free
  | taken
  | closed
  deriving DecidableEq, Repr

structure Board (A K O : Type*) where
  phase : A → Option Phase
  holder : K → Option (A × O)

inductive Move (A K O : Type*)
  | add (a : A)
  | take (k : K) (a : A) (o : O)
  | leave (k : K) (after : Phase)

variable {A K O : Type*} [DecidableEq A] [DecidableEq K]

inductive Step (b : Board A K O) : Move A K O → Board A K O → Prop
  | add (a : A) (hnew : b.phase a = none) :
      Step b (.add a) ⟨Function.update b.phase a (some .free), b.holder⟩
  | take (k : K) (a : A) (o : O) (hfree : b.phase a = some .free) (hidle : b.holder k = none)
      (howner : ∀ k' a', b.holder k' ≠ some (a', o)) :
      Step b (.take k a o)
        ⟨Function.update b.phase a (some .taken), Function.update b.holder k (some (a, o))⟩
  | leave (k : K) (a : A) (o : O) (after : Phase) (hheld : b.holder k = some (a, o))
      (hafter : after ≠ .taken) :
      Step b (.leave k after)
        ⟨Function.update b.phase a (some after), Function.update b.holder k none⟩

structure Idle (b : Board A K O) : Prop where
  untaken : ∀ a, b.phase a ≠ some .taken
  unheld : ∀ k, b.holder k = none

def system (A K O : Type*) [DecidableEq A] [DecidableEq K] : System (Board A K O) (Move A K O) where
  init := Idle
  step b m b' := Step b m b'

/-- The taken slots are the held ones, each by one holder, and no owner has two holders. -/
structure Exclusive (b : Board A K O) : Prop where
  held : ∀ k a o, b.holder k = some (a, o) → b.phase a = some .taken
  taken : ∀ a, b.phase a = some .taken → ∃ k o, b.holder k = some (a, o)
  slot : ∀ k k' a o o', b.holder k = some (a, o) → b.holder k' = some (a, o') → k = k'
  owner : ∀ k k' a a' o, b.holder k = some (a, o) → b.holder k' = some (a', o) → k = k'

namespace Exclusive

variable {b : Board A K O}

omit [DecidableEq K] in
theorem add (h : Exclusive b) {a : A} (hnew : b.phase a = none) :
    Exclusive (⟨Function.update b.phase a (some .free), b.holder⟩ : Board A K O) := by
  refine ⟨fun k a' o hk => ?_, fun a' htaken => ?_, h.slot, h.owner⟩
  · have hphase := h.held k a' o hk
    have hne : a' ≠ a := by
      rintro rfl
      rw [hnew] at hphase
      cases hphase
    change Function.update b.phase a (some .free) a' = _
    rw [Function.update_of_ne hne, hphase]
  · change Function.update b.phase a (some .free) a' = _ at htaken
    by_cases ha : a' = a
    · rw [ha, Function.update_self] at htaken
      cases htaken
    · rw [Function.update_of_ne ha] at htaken
      exact h.taken a' htaken

theorem take (h : Exclusive b) {k : K} {a : A} {o : O} (hfree : b.phase a = some .free)
    (hidle : b.holder k = none) (howner : ∀ k' a', b.holder k' ≠ some (a', o)) :
    Exclusive (⟨Function.update b.phase a (some .taken),
      Function.update b.holder k (some (a, o))⟩ : Board A K O) := by
  -- A holder of the new board is the new one, or an old one on another slot.
  have hcases : ∀ {k' a' o'}, Function.update b.holder k (some (a, o)) k' = some (a', o') →
      (k' = k ∧ a' = a ∧ o' = o) ∨ (k' ≠ k ∧ a' ≠ a ∧ o' ≠ o ∧ b.holder k' = some (a', o')) := by
    intro k' a' o' hk
    by_cases heq : k' = k
    · rw [heq, Function.update_self] at hk
      cases hk
      exact Or.inl ⟨heq, rfl, rfl⟩
    · rw [Function.update_of_ne heq] at hk
      refine Or.inr ⟨heq, ?_, ?_, hk⟩
      · rintro rfl
        have hphase := h.held k' a' o' hk
        rw [hfree] at hphase
        cases hphase
      · rintro rfl
        exact howner k' a' hk
  constructor
  · intro k' a' o' hk
    change Function.update b.phase a (some .taken) a' = _
    rcases hcases hk with ⟨_, rfl, _⟩ | ⟨_, hne, _, hold⟩
    · exact Function.update_self _ _ _
    · rw [Function.update_of_ne hne, h.held k' a' o' hold]
  · intro a' htaken
    change Function.update b.phase a (some .taken) a' = _ at htaken
    by_cases ha : a' = a
    · exact ⟨k, o, ha ▸ Function.update_self _ _ _⟩
    · rw [Function.update_of_ne ha] at htaken
      obtain ⟨k', o', hk⟩ := h.taken a' htaken
      refine ⟨k', o', ?_⟩
      change Function.update b.holder k (some (a, o)) k' = _
      rw [Function.update_of_ne, hk]
      rintro rfl
      rw [hidle] at hk
      cases hk
  · intro k₁ k₂ a' o₁ o₂ h₁ h₂
    rcases hcases h₁ with ⟨rfl, rfl, _⟩ | ⟨_, hne, _, hold₁⟩
    · rcases hcases h₂ with ⟨rfl, _⟩ | ⟨_, hne, _⟩
      · rfl
      · exact absurd rfl hne
    · rcases hcases h₂ with ⟨_, rfl, _⟩ | ⟨_, _, _, hold₂⟩
      · exact absurd rfl hne
      · exact h.slot k₁ k₂ a' o₁ o₂ hold₁ hold₂
  · intro k₁ k₂ a₁ a₂ o' h₁ h₂
    rcases hcases h₁ with ⟨rfl, _, rfl⟩ | ⟨_, _, hne, hold₁⟩
    · rcases hcases h₂ with ⟨rfl, _⟩ | ⟨_, _, hne, _⟩
      · rfl
      · exact absurd rfl hne
    · rcases hcases h₂ with ⟨_, _, rfl⟩ | ⟨_, _, _, hold₂⟩
      · exact absurd rfl hne
      · exact h.owner k₁ k₂ a₁ a₂ o' hold₁ hold₂

theorem leave (h : Exclusive b) {k : K} {a : A} {o : O} {after : Phase}
    (hheld : b.holder k = some (a, o)) (hafter : after ≠ .taken) :
    Exclusive (⟨Function.update b.phase a (some after),
      Function.update b.holder k none⟩ : Board A K O) := by
  -- A holder of the new board is an old one on another slot.
  have hcases : ∀ {k' a' o'}, Function.update b.holder k none k' = some (a', o') →
      a' ≠ a ∧ b.holder k' = some (a', o') := by
    intro k' a' o' hk
    by_cases heq : k' = k
    · rw [heq, Function.update_self] at hk
      cases hk
    · rw [Function.update_of_ne heq] at hk
      refine ⟨?_, hk⟩
      rintro rfl
      exact heq (h.slot k' k a' o' o hk hheld)
  constructor
  · intro k' a' o' hk
    obtain ⟨hne, hold⟩ := hcases hk
    change Function.update b.phase a (some after) a' = _
    rw [Function.update_of_ne hne, h.held k' a' o' hold]
  · intro a' htaken
    change Function.update b.phase a (some after) a' = _ at htaken
    by_cases ha : a' = a
    · rw [ha, Function.update_self, Option.some.injEq] at htaken
      exact absurd htaken hafter
    · rw [Function.update_of_ne ha] at htaken
      obtain ⟨k', o', hk⟩ := h.taken a' htaken
      refine ⟨k', o', ?_⟩
      change Function.update b.holder k none k' = _
      rw [Function.update_of_ne, hk]
      rintro rfl
      rw [hheld] at hk
      cases hk
      exact ha rfl
  · intro k₁ k₂ a' o₁ o₂ h₁ h₂
    exact h.slot k₁ k₂ a' o₁ o₂ (hcases h₁).2 (hcases h₂).2
  · intro k₁ k₂ a₁ a₂ o' h₁ h₂
    exact h.owner k₁ k₂ a₁ a₂ o' (hcases h₁).2 (hcases h₂).2

end Exclusive

theorem exclusive_inductive : (system A K O).Inductive Exclusive := by
  constructor
  · intro b hb
    refine ⟨fun k a o hk => ?_, fun a ha => ?_, fun k k' a o o' hk => ?_,
      fun k k' a a' o hk => ?_⟩
    · rw [hb.unheld] at hk
      cases hk
    · exact absurd ha (hb.untaken a)
    · rw [hb.unheld] at hk
      cases hk
    · rw [hb.unheld] at hk
      cases hk
  · intro b m b' hb hstep
    cases hstep with
    | add a hnew => exact hb.add hnew
    | take k a o hfree hidle howner => exact hb.take hfree hidle howner
    | leave k a o after hheld hafter => exact hb.leave hheld hafter

theorem closed_stays {b b' : Board A K O} {m : Move A K O} {a : A} (h : Exclusive b)
    (hstep : Step b m b') (hclosed : b.phase a = some .closed) : b'.phase a = some .closed := by
  have hother : ∀ a' p, b.phase a' ≠ some .closed →
      Function.update b.phase a' p a = some .closed := by
    intro a' p hopen
    rw [Function.update_of_ne, hclosed]
    rintro rfl
    exact hopen hclosed
  cases hstep with
  | add a' hnew => exact hother a' _ (by rw [hnew]; simp)
  | take k a' o hfree => exact hother a' _ (by rw [hfree]; simp)
  | leave k a' o after hheld => exact hother a' _ (by rw [h.held k a' o hheld]; simp)

end Slots
