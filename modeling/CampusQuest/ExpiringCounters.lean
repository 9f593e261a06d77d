import Mathlib.Logic.Function.Basic
import Mathlib.Data.Int.Notation
import Mathlib.Data.Nat.Notation
import Mathlib.Order.Basic
import Mathlib.Order.Defs.LinearOrder

/-!
Counters that lapse. A counter is created by its first increment and has no expiry of its own; one
is set by a command of its own, which leaves an expiry that is there. The counters whose expiry has
come are gone.
-/

namespace ExpiringCounters

structure Counter where
  count : ℕ
  expiresAt : Option ℤ

structure Store (κ : Type*) where
  now : ℤ
  counters : κ → Option Counter

namespace Store

variable {κ : Type*} [DecidableEq κ] (s : Store κ)

def incr (key : κ) : Store κ × ℕ :=
  match s.counters key with
  | some c =>
    ({ s with counters := Function.update s.counters key (some { c with count := c.count + 1 }) },
      c.count + 1)
  | none => ({ s with counters := Function.update s.counters key (some ⟨1, none⟩) }, 1)

def expireNx (key : κ) (ttl : ℤ) : Store κ :=
  { s with
    counters := Function.update s.counters key ((s.counters key).map fun c =>
      { c with expiresAt := c.expiresAt.or (some (s.now + ttl)) }) }

omit [DecidableEq κ] in
def elapse (d : ℕ) : Store κ where
  now := s.now + d
  counters key := (s.counters key).filter fun c => c.expiresAt.all fun t => s.now + d < t

variable {s} {key k : κ} {c : Counter}

@[simp] theorem incr_now : (s.incr key).1.now = s.now := by
  unfold incr
  split <;> rfl

@[simp] theorem expireNx_now {ttl : ℤ} : (s.expireNx key ttl).now = s.now := rfl

theorem incr_other (h : k ≠ key) : (s.incr key).1.counters k = s.counters k := by
  unfold incr
  split <;> exact Function.update_of_ne h _ _

/-- What an increment leaves under its key: the first count, or one more with the expiry that is
there. -/
theorem incr_self : ∃ c, (s.incr key).1.counters key = some c ∧ c.count = (s.incr key).2 ∧
    (s.counters key = none ∧ c = ⟨1, none⟩ ∨
      ∃ old, s.counters key = some old ∧ c = { old with count := old.count + 1 }) := by
  unfold incr
  split
  next old hold => exact ⟨_, Function.update_self .., rfl, Or.inr ⟨old, hold, rfl⟩⟩
  next hnone => exact ⟨_, Function.update_self .., rfl, Or.inl ⟨hnone, rfl⟩⟩

/-- Setting an expiry keeps the counts and the expiries that are there. -/
theorem expireNx_some {ttl : ℤ} (h : (s.expireNx key ttl).counters k = some c) :
    ∃ old, s.counters k = some old ∧ c.count = old.count ∧
      (c.expiresAt = old.expiresAt ∨ k = key ∧ c.expiresAt = some (s.now + ttl)) := by
  by_cases hk : k = key
  · subst hk
    unfold expireNx at h
    dsimp only at h
    rw [Function.update_self, Option.map_eq_some_iff] at h
    obtain ⟨old, hold, rfl⟩ := h
    refine ⟨old, hold, rfl, ?_⟩
    cases hexpiry : old.expiresAt with
    | none => exact Or.inr ⟨rfl, rfl⟩
    | some t => exact Or.inl rfl
  · unfold expireNx at h
    dsimp only at h
    rw [Function.update_of_ne hk] at h
    exact ⟨c, h, rfl, Or.inl rfl⟩

theorem exists_expireNx {ttl : ℤ} (h : s.counters k = some c) :
    ∃ c', (s.expireNx key ttl).counters k = some c' ∧ c'.count = c.count := by
  by_cases hk : k = key
  · subst hk
    refine ⟨{ c with expiresAt := c.expiresAt.or (some (s.now + ttl)) }, ?_, rfl⟩
    unfold expireNx
    dsimp only
    rw [Function.update_self, h, Option.map_some]
  · refine ⟨c, ?_, rfl⟩
    unfold expireNx
    dsimp only
    rw [Function.update_of_ne hk]
    exact h

omit [DecidableEq κ] in
theorem elapse_some {d : ℕ} : (s.elapse d).counters k = some c ↔
    s.counters k = some c ∧ ∀ t, c.expiresAt = some t → s.now + d < t := by
  unfold elapse
  rw [Option.filter_eq_some_iff, Option.all_eq_true]
  simp only [decide_eq_true_eq]

end Store

end ExpiringCounters
