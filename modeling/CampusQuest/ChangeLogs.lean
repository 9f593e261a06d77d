import Mathlib.Data.List.Chain
import Mathlib.Data.Nat.Notation

/-!
The log of a versioned value. Each change records the value before it, the value after it and
its version. A log is connected to the value that it has led to when the versions count up
from 1, the first change starts from nothing and every later one from where its predecessor
ended. Appending a change that was judged against the current value keeps a log connected.
-/

namespace ChangeLogs

structure Change (α : Type*) where
  before : Option α
  after : α
  version : ℕ
  deriving DecidableEq

structure Connected {α : Type*} (log : List (Change α)) (current : Option (α × ℕ)) : Prop where
  versions : log.map (·.version) = List.range' 1 log.length
  first : ∀ c, log.head? = some c → c.before = none
  linked : log.IsChain fun a b => b.before = some a.after
  last : current = log.getLast?.map fun c => (c.after, c.version)

variable {α : Type*} {log : List (Change α)} {current : Option (α × ℕ)}

/-- The next change of a value: it starts from the current value and counts one up. -/
def next (current : Option (α × ℕ)) (after : α) : Change α :=
  ⟨current.map (·.1), after, current.elim 1 fun c => c.2 + 1⟩

theorem connected_nil : Connected ([] : List (Change α)) none :=
  ⟨rfl, by simp, .nil, rfl⟩

namespace Connected

theorem version_eq (h : Connected log current) : (current.elim 0 fun c => c.2) = log.length := by
  rw [h.last]
  cases hlast : log.getLast? with
  | none =>
    rw [List.getLast?_eq_none_iff] at hlast
    simp [hlast]
  | some c =>
    have hmap : (log.map (·.version)).getLast? = some c.version := by
      rw [List.getLast?_map, hlast]
      rfl
    rw [h.versions, List.getLast?_range'] at hmap
    split at hmap
    · cases hmap
    · simp only [Option.some.injEq] at hmap
      simp only [Option.map_some, Option.elim_some]
      omega

theorem next_version (h : Connected log current) (after : α) :
    (next current after).version = log.length + 1 := by
  rw [← h.version_eq]
  cases current <;> rfl

theorem append (h : Connected log current) (after : α) :
    Connected (log ++ [next current after])
      (some (after, (next current after).version)) := by
  refine ⟨?_, ?_, ?_, ?_⟩
  · rw [List.map_append, h.versions, List.map_singleton, h.next_version, List.length_append,
      List.length_singleton, List.range'_concat]
    simp [Nat.add_comm]
  · intro c hc
    cases log with
    | nil =>
      have hcurrent : current = none := h.last
      obtain rfl : next current after = c := by simpa using hc
      rw [hcurrent]
      rfl
    | cons a l => exact h.first c hc
  · rw [List.isChain_append]
    refine ⟨h.linked, .singleton _, fun a ha b hb => ?_⟩
    obtain rfl : next current after = b := by simpa using hb
    have hcurrent : current = some (a.after, a.version) := by
      rw [h.last, Option.mem_def.mp ha]
      rfl
    rw [hcurrent]
    rfl
  · rw [List.getLast?_concat]
    rfl

end Connected

end ChangeLogs
