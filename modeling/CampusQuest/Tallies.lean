import Mathlib.Data.Finset.Card
import Mathlib.Data.List.Basic

/-!
Duplicates that are counted by the keys seen so far, of which a bounded number is remembered. While
there are no more keys than that, the count is the exact number of repetitions. Beyond it the
remembered keys stay as they are, and the count never exceeds that number.
-/

namespace Tallies

variable {κ : Type*} [DecidableEq κ]

structure Tally (κ : Type*) where
  seen : List κ
  degraded : Bool
  duplicates : ℕ

def Tally.empty : Tally κ := ⟨[], false, 0⟩

def Tally.step (cap : ℕ) (t : Tally κ) (key : κ) : Tally κ :=
  if key ∈ t.seen then { t with duplicates := t.duplicates + 1 }
  else if t.degraded = true then t
  else if cap ≤ t.seen.length then { t with degraded := true }
  else { t with seen := key :: t.seen }

def run (cap : ℕ) (keys : List κ) : Tally κ := keys.foldl (Tally.step cap) .empty

structure Accounted (cap : ℕ) (keys : List κ) (t : Tally κ) : Prop where
  nodup : t.seen.Nodup
  known : ∀ key ∈ t.seen, key ∈ keys
  room : t.seen.length ≤ cap
  complete : t.degraded = false → ∀ key ∈ keys, key ∈ t.seen
  exact : t.degraded = false → t.duplicates + t.seen.length = keys.length
  missed : t.degraded = true → cap < keys.toFinset.card
  bound : t.duplicates + keys.toFinset.card ≤ keys.length

variable {cap : ℕ} {keys : List κ} {t : Tally κ}

theorem card_append_singleton (keys : List κ) (key : κ) : (keys ++ [key]).toFinset.card =
    if key ∈ keys then keys.toFinset.card else keys.toFinset.card + 1 := by
  have hset : (keys ++ [key]).toFinset = insert key keys.toFinset := by
    ext x
    simp
  rw [hset]
  split
  next hmem => rw [Finset.insert_eq_of_mem (List.mem_toFinset.mpr hmem)]
  next hmem => rw [Finset.card_insert_of_notMem fun h => hmem (List.mem_toFinset.mp h)]

/-- A tally that has not degraded remembers each key once. -/
theorem Accounted.card_seen (h : Accounted cap keys t) (hexact : t.degraded = false) :
    keys.toFinset.card = t.seen.length := by
  rw [← List.toFinset_card_of_nodup h.nodup]
  refine congrArg _ (Finset.ext fun key => ?_)
  rw [List.mem_toFinset, List.mem_toFinset]
  exact ⟨h.complete hexact key, h.known key⟩

theorem Accounted.step (h : Accounted cap keys t) (key : κ) :
    Accounted cap (keys ++ [key]) (t.step cap key) := by
  have hlength : (keys ++ [key]).length = keys.length + 1 := List.length_append
  have hcard := card_append_singleton keys key
  have hgrow : keys.toFinset.card ≤ (keys ++ [key]).toFinset.card := by
    rw [hcard]
    split <;> omega
  have hknown : ∀ k ∈ t.seen, k ∈ keys ++ [key] :=
    fun k hk => List.mem_append_left _ (h.known k hk)
  have hbound := h.bound
  unfold Tally.step
  split
  next hseen =>
    -- A repetition is counted.
    rw [if_pos (h.known key hseen)] at hcard
    refine ⟨h.nodup, hknown, h.room, fun hexact k hk => ?_, fun hexact => ?_, fun hmissed => ?_, ?_⟩
    · rcases List.mem_append.mp hk with hold | hnew
      · exact h.complete hexact k hold
      · exact List.mem_singleton.mp hnew ▸ hseen
    · have hcount := h.exact hexact
      dsimp only
      omega
    · exact (h.missed hmissed).trans_le hgrow
    · dsimp only
      omega
  next hseen =>
    split
    next hdegraded =>
      -- A key that is not remembered may be a new one.
      have hle : (keys ++ [key]).toFinset.card ≤ keys.toFinset.card + 1 := by
        rw [hcard]
        split <;> omega
      exact ⟨h.nodup, hknown, h.room, fun hexact => (by rw [hdegraded] at hexact; cases hexact),
        fun hexact => (by rw [hdegraded] at hexact; cases hexact),
        fun hmissed => (h.missed hmissed).trans_le hgrow, by omega⟩
    next hexact =>
      have hexact := Bool.eq_false_of_not_eq_true hexact
      have hnew : key ∉ keys := fun hmem => hseen (h.complete hexact key hmem)
      rw [if_neg hnew] at hcard
      have hdistinct := h.card_seen hexact
      have hcount := h.exact hexact
      split
      next hfull =>
        refine ⟨h.nodup, hknown, h.room, fun hnot => (by cases hnot), fun hnot => (by cases hnot),
          fun _ => (by omega), ?_⟩
        dsimp only
        omega
      next hroom =>
        refine ⟨List.nodup_cons.mpr ⟨hseen, h.nodup⟩, fun k hk => ?_, ?_, fun _ k hk => ?_,
          fun _ => ?_, fun hmissed => (by rw [hexact] at hmissed; cases hmissed), ?_⟩
        · rcases List.mem_cons.mp hk with rfl | hold
          · exact List.mem_append_right _ List.mem_cons_self
          · exact hknown k hold
        · rw [List.length_cons]
          omega
        · rcases List.mem_append.mp hk with hold | hlast
          · exact List.mem_cons_of_mem _ (h.complete hexact k hold)
          · exact List.mem_singleton.mp hlast ▸ List.mem_cons_self
        · rw [List.length_cons, hlength]
          dsimp only
          omega
        · dsimp only
          omega

theorem accounted_run (cap : ℕ) (keys : List κ) : Accounted cap keys (run cap keys) := by
  induction keys using List.reverseRecOn with
  | nil =>
    exact ⟨List.nodup_nil, fun _ h => h, Nat.zero_le _, fun _ _ h => h, fun _ => rfl,
      fun h => (by cases h), le_rfl⟩
  | append_singleton keys key ih =>
    unfold run
    rw [List.foldl_append]
    exact ih.step key

/-- The count is exact, and the tally whole, while the distinct keys are within the cap. -/
theorem run_exact (h : keys.toFinset.card ≤ cap) : (run cap keys).degraded = false ∧
    (run cap keys).duplicates = keys.length - keys.toFinset.card := by
  have hrun := accounted_run cap keys
  have hexact : (run cap keys).degraded = false := by
    by_contra hdegraded
    have hmissed := hrun.missed (Bool.eq_true_of_not_eq_false hdegraded)
    omega
  have hcount := hrun.exact hexact
  have hcard := hrun.card_seen hexact
  exact ⟨hexact, by omega⟩

/-- Beyond the cap the tally has degraded, and the count is a lower bound. -/
theorem run_bound (h : cap < keys.toFinset.card) : (run cap keys).degraded = true ∧
    (run cap keys).duplicates ≤ keys.length - keys.toFinset.card := by
  have hrun := accounted_run cap keys
  refine ⟨?_, by have := hrun.bound; omega⟩
  by_contra hexact
  have hcard := hrun.card_seen (Bool.eq_false_of_not_eq_true hexact)
  have hroom := hrun.room
  omega

end Tallies
