import Mathlib.Logic.Basic

/-!
Checks in a fallible function. A function refuses with an error or answers with a value;
each lemma says what an answer, or a refusal, of a composed check tells about its parts.
-/

namespace Guards

universe u

variable {ε : Type u} {α β : Type}

def orRefuse (e : ε) : Option α → Except ε α
  | some a => .ok a
  | none => .error e

def ensure (p : Prop) [Decidable p] (e : ε) : Except ε Unit :=
  if p then .ok () else .error e

def refusal : Except ε α → Option ε
  | .ok _ => none
  | .error e => some e

theorem refusal_eq_some {x : Except ε α} {e : ε} : refusal x = some e ↔ x = .error e := by
  cases x <;> simp [refusal]

theorem bind_ok {x : Except ε α} {f : α → Except ε β} {b : β} :
    (x >>= f) = .ok b ↔ ∃ a, x = .ok a ∧ f a = .ok b := by
  cases x with
  | ok a => simp [bind, Except.bind]
  | error e => simp [bind, Except.bind]

theorem bind_error {x : Except ε α} {f : α → Except ε β} {e : ε} :
    (x >>= f) = .error e ↔ x = .error e ∨ ∃ a, x = .ok a ∧ f a = .error e := by
  cases x with
  | ok a => simp [bind, Except.bind]
  | error e => simp [bind, Except.bind]

@[simp] theorem orRefuse_ok {e : ε} {o : Option α} {a : α} :
    orRefuse e o = .ok a ↔ o = some a := by
  cases o <;> simp [orRefuse]

@[simp] theorem orRefuse_error {e e' : ε} {o : Option α} :
    orRefuse e o = .error e' ↔ o = none ∧ e = e' := by
  cases o <;> simp [orRefuse]

@[simp] theorem ensure_ok {p : Prop} [Decidable p] {e : ε} {u : Unit} :
    ensure p e = .ok u ↔ p := by
  unfold ensure
  split <;> simp_all

@[simp] theorem ensure_error {p : Prop} [Decidable p] {e e' : ε} :
    ensure p e = .error e' ↔ ¬ p ∧ e = e' := by
  unfold ensure
  split <;> simp_all

/-- The steps after a check that passed. -/
theorem ensure_bind_ok {p : Prop} [Decidable p] {e : ε} {f : Unit → Except ε β} {b : β} :
    (ensure p e >>= f) = .ok b ↔ p ∧ f () = .ok b := by
  rw [bind_ok]
  constructor
  · rintro ⟨_, hp, hf⟩
    exact ⟨ensure_ok.mp hp, hf⟩
  · rintro ⟨hp, hf⟩
    exact ⟨(), ensure_ok.mpr hp, hf⟩

/-- The steps after a row that is there. -/
theorem orRefuse_bind_ok {e : ε} {o : Option α} {f : α → Except ε β} {b : β} :
    (orRefuse e o >>= f) = .ok b ↔ ∃ a, o = some a ∧ f a = .ok b := by
  rw [bind_ok]
  simp

/-- A row that is there lets the steps after it run. -/
theorem orRefuse_some_bind (e : ε) (a : α) (f : α → Except ε β) :
    (orRefuse e (some a) >>= f) = f a := rfl

/-- A check that passes lets the steps after it run. -/
theorem ensure_true_bind {p : Prop} [Decidable p] (h : p) (e : ε) (f : Unit → Except ε β) :
    (ensure p e >>= f) = f () := by
  unfold ensure
  rw [if_pos h]
  rfl

end Guards
