import CampusQuest.Runs
import Mathlib.Logic.Function.Basic

/-!
Concurrent transactions over a shared store under exclusive locks. A transaction is a
process whose statements read the committed store, take locks and build up private
state; only its commit changes the store, and commit or rollback ends its locks. What
a transaction has read stays true while every other commit is made under locks
disjoint from its own. So in every reachable configuration the locks are exclusive and
the reads are current, and each commit can be judged as one atomic step of the store.
The proof obligations may use an invariant of the store that the commits keep.
-/

namespace Locking

open Runs

/-- The statements of one transaction. `read` leaves the store as it is and may take or
give up locks, `commit` publishes the pending writes. `known` says what the reads
recorded in the private state still guarantee about the committed store. -/
structure Protocol (σ κ Λ α : Type*) where
  locks : Λ → κ → Prop
  known : Λ → σ → Prop
  start : Λ → Prop
  read : Λ → σ → Λ → Prop
  commit : Λ → σ → α → Λ → σ → Prop

structure Config (ι σ Λ : Type*) where
  store : σ
  proc : ι → Λ

/-- An action of the system: which process moves, and the label of its commit if any. -/
abbrev Move (ι α : Type*) := ι × Option α

namespace Protocol

variable {ι σ κ Λ α : Type*} [DecidableEq ι] (P : Protocol σ κ Λ α)

/-- No other process holds a lock of this private state. -/
def Free (c : Config ι σ Λ) (i : ι) (m : Λ) : Prop :=
  ∀ j, j ≠ i → ∀ k, P.locks m k → ¬ P.locks (c.proc j) k

/-- Any number of processes interleave; a statement that needs a held lock waits. -/
inductive Step : Config ι σ Λ → Move ι α → Config ι σ Λ → Prop
  | read (c : Config ι σ Λ) (i : ι) (m : Λ) (hread : P.read (c.proc i) c.store m)
      (hfree : P.Free c i m) :
      Step c (i, none) ⟨c.store, Function.update c.proc i m⟩
  | commit (c : Config ι σ Λ) (i : ι) (a : α) (m : Λ) (s' : σ)
      (hcommit : P.commit (c.proc i) c.store a m s') (hfree : P.Free c i m) :
      Step c (i, some a) ⟨s', Function.update c.proc i m⟩

/-- The system of all processes, from given stores and with every process at its start. -/
def system (ι : Type*) [DecidableEq ι] (initial : σ → Prop) :
    System (Config ι σ Λ) (Move ι α) where
  init c := initial c.store ∧ ∀ i, P.start (c.proc i)
  step := P.Step

/-- The store keeps its invariant, locks are exclusive and every process still knows what
it read. -/
structure Current (I : σ → Prop) (c : Config ι σ Λ) : Prop where
  inv : I c.store
  exclusive : ∀ i j, i ≠ j → ∀ k, P.locks (c.proc i) k → ¬ P.locks (c.proc j) k
  known : ∀ i, P.known (c.proc i) c.store

/-- The proof obligations of a protocol, one transaction at a time. -/
structure Sound (I : σ → Prop) : Prop where
  start_locks : ∀ m k, P.start m → ¬ P.locks m k
  start_known : ∀ m s, P.start m → P.known m s
  read_known : ∀ m s m', P.known m s → P.read m s m' → P.known m' s
  commit_inv : ∀ m s a m' s', I s → P.known m s → P.commit m s a m' s' → I s'
  commit_known : ∀ m s a m' s', I s → P.known m s → P.commit m s a m' s' → P.known m' s'
  commit_stable : ∀ m s a m' s' o, I s → P.known m s → P.commit m s a m' s' → P.known o s →
    (∀ k, P.locks m k → ¬ P.locks o k) → P.known o s'

variable {P} {I : σ → Prop}

theorem exclusive_update {c : Config ι σ Λ} {i : ι} {m : Λ}
    (hexcl : ∀ i j, i ≠ j → ∀ k, P.locks (c.proc i) k → ¬ P.locks (c.proc j) k)
    (hfree : P.Free c i m) :
    ∀ j j', j ≠ j' → ∀ k, P.locks (Function.update c.proc i m j) k →
      ¬ P.locks (Function.update c.proc i m j') k := by
  intro j j' hne k hk hk'
  by_cases hj : j = i
  · subst hj
    rw [Function.update_self] at hk
    rw [Function.update_of_ne (Ne.symm hne)] at hk'
    exact hfree j' (Ne.symm hne) k hk hk'
  · rw [Function.update_of_ne hj] at hk
    by_cases hj' : j' = i
    · subst hj'
      rw [Function.update_self] at hk'
      exact hfree j hj k hk' hk
    · rw [Function.update_of_ne hj'] at hk'
      exact hexcl j j' hne k hk hk'

theorem Sound.current_step (h : P.Sound I) {c c' : Config ι σ Λ} {a : Move ι α}
    (hc : P.Current I c) (hstep : P.Step c a c') : P.Current I c' := by
  cases hstep with
  | read i m hread hfree =>
    refine ⟨hc.inv, exclusive_update hc.exclusive hfree, ?_⟩
    intro j
    by_cases hj : j = i
    · subst hj
      simpa using h.read_known _ _ _ (hc.known j) hread
    · simpa [Function.update_of_ne hj] using hc.known j
  | commit i a m s' hcommit hfree =>
    refine ⟨h.commit_inv _ _ _ _ _ hc.inv (hc.known i) hcommit,
      exclusive_update hc.exclusive hfree, ?_⟩
    intro j
    by_cases hj : j = i
    · subst hj
      simpa using h.commit_known _ _ _ _ _ hc.inv (hc.known j) hcommit
    · have hdisjoint := hc.exclusive i j (Ne.symm hj)
      simpa [Function.update_of_ne hj] using
        h.commit_stable _ _ _ _ _ _ hc.inv (hc.known i) hcommit (hc.known j) hdisjoint

theorem Sound.current_inductive (h : P.Sound I) {initial : σ → Prop}
    (hinit : ∀ s, initial s → I s) : (P.system ι initial).Inductive (P.Current I) := by
  constructor
  · rintro c ⟨hstore, hstart⟩
    exact ⟨hinit _ hstore, fun i _ _ k hk => absurd hk (h.start_locks _ k (hstart i)),
      fun i => h.start_known _ _ (hstart i)⟩
  · intro c a c' hc hstep
    exact h.current_step hc hstep

theorem Sound.current (h : P.Sound I) {initial : σ → Prop} (hinit : ∀ s, initial s → I s)
    {c : Config ι σ Λ} (hc : (P.system ι initial).Reach c) : P.Current I c :=
  (h.current_inductive hinit).reach hc

/-- A step leaves the store alone, or it is a commit of a process that knows what it has read. -/
theorem Sound.step_store (h : P.Sound I) {initial : σ → Prop} (hinit : ∀ s, initial s → I s)
    {c c' : Config ι σ Λ} {a : Move ι α} (hc : (P.system ι initial).Reach c)
    (hstep : (P.system ι initial).step c a c') :
    I c.store ∧ ((a.2 = none ∧ c'.store = c.store) ∨ ∃ ev m', a.2 = some ev ∧
      P.known (c.proc a.1) c.store ∧ P.commit (c.proc a.1) c.store ev m' c'.store) := by
  have hcurrent := h.current hinit hc
  refine ⟨hcurrent.inv, ?_⟩
  cases hstep with
  | read => exact Or.inl ⟨rfl, rfl⟩
  | commit i ev m' s' hcommit hfree => exact Or.inr ⟨ev, m', rfl, hcurrent.known i, hcommit⟩

/-- An event of a run is a commit of a process that knows what it has read. -/
theorem Sound.event (h : P.Sound I) {initial : σ → Prop} (hinit : ∀ s, initial s → I s)
    {c c' : Config ι σ Λ} {l : List (Config ι σ Λ × Move ι α × Config ι σ Λ)}
    (hc : (P.system ι initial).Reach c) (hrun : (P.system ι initial).Run c l c')
    {e : Config ι σ Λ × Move ι α × Config ι σ Λ} (he : e ∈ l) {ev : α} (hev : e.2.1.2 = some ev) :
    I e.1.store ∧ P.known (e.1.proc e.2.1.1) e.1.store ∧
      ∃ m', P.commit (e.1.proc e.2.1.1) e.1.store ev m' e.2.2.store := by
  obtain ⟨hstep, l', hbefore⟩ := hrun.step_mem he
  obtain ⟨hinv, ⟨hnone, _⟩ | ⟨ev', m', hsome, hknown, hcommit⟩⟩ :=
    h.step_store hinit (hbefore.reach hc) hstep
  · rw [hnone] at hev
    cases hev
  · obtain rfl := Option.some.inj (hsome.symm.trans hev)
    exact ⟨hinv, hknown, m', hcommit⟩

/-- If each commit of a transaction whose reads are current is one step of an atomic
system, then the store of every reachable configuration is reachable atomically. -/
theorem Sound.store_reach (h : P.Sound I) {S : System σ α} (hinit : ∀ s, S.init s → I s)
    (hatomic : ∀ m s a m' s', I s → P.known m s → P.commit m s a m' s' → S.step s a s')
    {c : Config ι σ Λ} (hc : (P.system ι S.init).Reach c) : S.Reach c.store := by
  induction hc with
  | init hinit => exact System.Reach.init hinit.1
  | step hreach hstep ih =>
    have hcurrent := h.current hinit hreach
    cases hstep with
    | read => exact ih
    | commit i a m s' hcommit hfree =>
      exact System.Reach.step ih (hatomic _ _ _ _ _ hcurrent.inv (hcurrent.known i) hcommit)

end Protocol

end Locking
