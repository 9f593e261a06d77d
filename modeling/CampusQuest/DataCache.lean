import CampusQuest.Runs
import Mathlib.Data.Int.Order.Basic
import Mathlib.Data.List.Induction
import Mathlib.Data.List.TakeWhile
import Mathlib.Data.Nat.Basic
import Mathlib.Logic.Function.Basic

/-!
The server-state cache of the frontend. Every key has one entry with the last snapshot and the load
in flight; an invalidation drops all entries and raises the generation, so that a load from before
it can no longer write. A history of what happened says which snapshots are right.
-/

namespace CampusQuest.DataCache

open Runs

abbrev LoaderId := ℕ

/-- Milliseconds since the epoch, as `Date.now()` gives them. -/
abbrev Millis := ℤ

def freshMs : Millis := 15000

variable {κ ν : Type} [DecidableEq κ]

structure Entry (ν : Type) where
  generation : ℕ
  fetchedAt : Millis
  data : Option ν
  inflight : Option LoaderId

structure Cache (κ ν : Type) where
  store : κ → Option (Entry ν)
  generation : ℕ

inductive ReadOutcome (ν : Type)
  | fresh (data : Option ν)
  | stale (data : ν) (revalidation : LoaderId)
  | absent (promise : LoaderId)

namespace Cache

variable (c : Cache κ ν)

def invalidate : Cache κ ν := ⟨fun _ => none, c.generation + 1⟩

def put (key : κ) (entry : Entry ν) : Cache κ ν :=
  { c with store := Function.update c.store key (some entry) }

def valid (key : κ) : Option (Entry ν) :=
  (c.store key).filter fun entry => entry.generation = c.generation

def isFresh (entry : Entry ν) (now : Millis) : Bool := now - entry.fetchedAt < freshMs

def serves (key : κ) (force : Bool) (now : Millis) : Option (Entry ν) :=
  (c.valid key).filter fun entry => isFresh entry now && !force

def joined (key : κ) : Option LoaderId := (c.valid key).bind Entry.inflight

def revalidating (key : κ) (loader : LoaderId) : Entry ν where
  generation := c.generation
  fetchedAt := (c.valid key).elim 0 Entry.fetchedAt
  data := (c.valid key).bind Entry.data
  inflight := some loader

def awaiting (key : κ) (inflight : LoaderId) : ReadOutcome ν :=
  match (c.valid key).bind Entry.data with
  | some data => .stale data inflight
  | none => .absent inflight

/-- `readCached`: the store behind the call, its answer, and whether the loader was called, whose
promise is the given one. -/
def readCached (key : κ) (force : Bool) (now : Millis) (loader : LoaderId) :
    Cache κ ν × ReadOutcome ν × Bool :=
  match c.serves key force now with
  | some entry => (c, .fresh entry.data, false)
  | none =>
    match c.joined key with
    | some inflight => (c, c.awaiting key inflight, false)
    | none => (c.put key (c.revalidating key loader), c.awaiting key loader, true)

def fulfilled (key : κ) (myGeneration : ℕ) (now : Millis) (data : Option ν) : Cache κ ν :=
  if c.generation = myGeneration then c.put key ⟨myGeneration, now, data, none⟩ else c

/-- The failure of a load frees its slot, and leaves the snapshot. -/
def rejected (key : κ) (myGeneration : ℕ) (loader : LoaderId) : Cache κ ν :=
  if c.generation = myGeneration then
    match c.store key with
    | some current =>
      if current.inflight = some loader then c.put key { current with inflight := none } else c
    | none => c
  else c

end Cache

/-! ### Runs of the module -/

inductive Happened (κ ν : Type)
  | started (loader : LoaderId) (key : κ)
  | succeeded (loader : LoaderId) (key : κ) (data : Option ν)
  | failed (loader : LoaderId) (key : κ)
  | invalidated

/-- The module, the loads that have not settled with their keys and generations, and what has
happened, the last first. -/
structure World (κ ν : Type) where
  cache : Cache κ ν
  pending : LoaderId → Option (κ × ℕ)
  issued : LoaderId
  history : List (Happened κ ν)

inductive Call (κ ν : Type)
  | read (key : κ) (force : Bool) (now : Millis)
  | fulfil (loader : LoaderId) (now : Millis) (data : Option ν)
  | reject (loader : LoaderId)
  | invalidate

namespace World

variable (w : World κ ν)

def answer (key : κ) (force : Bool) (now : Millis) : ReadOutcome ν :=
  (w.cache.readCached key force now w.issued).2.1

def Starts (key : κ) (force : Bool) (now : Millis) : Prop :=
  (w.cache.readCached key force now w.issued).2.2 = true

instance (key : κ) (force : Bool) (now : Millis) : Decidable (w.Starts key force now) :=
  inferInstanceAs (Decidable (_ = true))

def read (key : κ) (force : Bool) (now : Millis) : World κ ν :=
  if w.Starts key force now then
    { cache := (w.cache.readCached key force now w.issued).1
      pending := Function.update w.pending w.issued (some (key, w.cache.generation))
      issued := w.issued + 1
      history := .started w.issued key :: w.history }
  else { w with cache := (w.cache.readCached key force now w.issued).1 }

def begun (key : κ) : World κ ν :=
  { cache := w.cache.put key (w.cache.revalidating key w.issued)
    pending := Function.update w.pending w.issued (some (key, w.cache.generation))
    issued := w.issued + 1
    history := .started w.issued key :: w.history }

def fulfil (loader : LoaderId) (now : Millis) (data : Option ν) : World κ ν :=
  match w.pending loader with
  | none => w
  | some (key, myGeneration) =>
    { w with
      cache := w.cache.fulfilled key myGeneration now data
      pending := Function.update w.pending loader none
      history := .succeeded loader key data :: w.history }

def reject (loader : LoaderId) : World κ ν :=
  match w.pending loader with
  | none => w
  | some (key, myGeneration) =>
    { w with
      cache := w.cache.rejected key myGeneration loader
      pending := Function.update w.pending loader none
      history := .failed loader key :: w.history }

def invalidate : World κ ν :=
  { w with cache := w.cache.invalidate, history := .invalidated :: w.history }

def call : Call κ ν → World κ ν
  | .read key force now => w.read key force now
  | .fulfil loader now data => w.fulfil loader now data
  | .reject loader => w.reject loader
  | .invalidate => w.invalidate

end World

def system (κ ν : Type) [DecidableEq κ] : System (World κ ν) (Call κ ν) where
  init w := w = ⟨⟨fun _ => none, 0⟩, fun _ => none, 0, []⟩
  step w a w' := w' = w.call a

/-! ### What the history says -/

def present : List (Happened κ ν) → List (Happened κ ν)
  | [] => []
  | .invalidated :: _ => []
  | e :: history => e :: present history

def StartedNow (history : List (Happened κ ν)) (loader : LoaderId) (key : κ) : Prop :=
  .started loader key ∈ present history

/-- The success is the last one, since the last invalidation, of a load of the key that was started
since then. -/
def Latest (history : List (Happened κ ν)) (key : κ) (loader : LoaderId) (data : Option ν) : Prop :=
  StartedNow history loader key ∧ ∃ newer older,
    present history = newer ++ .succeeded loader key data :: older ∧
    ∀ loader' data', .succeeded loader' key data' ∈ newer → ¬ StartedNow history loader' key

def Ends (loader : LoaderId) (key : κ) (e : Happened κ ν) : Prop :=
  e = .invalidated ∨ e = .failed loader key ∨ ∃ data, e = .succeeded loader key data

section History

variable {history : List (Happened κ ν)} {key key' : κ} {loader loader' : LoaderId}
  {data : Option ν} {e : Happened κ ν}

omit [DecidableEq κ] in
theorem present_cons (he : e ≠ .invalidated) : present (e :: history) = e :: present history := by
  cases e with
  | invalidated => exact (he rfl).elim
  | started => rfl
  | succeeded => rfl
  | failed => rfl

omit [DecidableEq κ] in
theorem mem_of_mem_present (h : e ∈ present history) : e ∈ history := by
  induction history with
  | nil => cases h
  | cons first history ih =>
    by_cases hfirst : first = .invalidated
    · rw [hfirst] at h
      cases h
    · rw [present_cons hfirst] at h
      rcases List.mem_cons.mp h with rfl | hrest
      · exact List.mem_cons_self
      · exact List.mem_cons_of_mem _ (ih hrest)

omit [DecidableEq κ] in
theorem startedNow_cons (he : e ≠ .invalidated) : StartedNow (e :: history) loader key ↔
    e = .started loader key ∨ StartedNow history loader key := by
  unfold StartedNow
  rw [present_cons he, List.mem_cons]
  exact or_congr_left eq_comm

omit [DecidableEq κ] in
/-- What is no success of the key leaves its latest one. -/
theorem Latest.cons (h : Latest history key loader data) (he : e ≠ .invalidated)
    (hstarted : ∀ l k, e = .started l k → ∀ l' d, .succeeded l' key d ∈ history → l ≠ l')
    (hother : ∀ l d, e = .succeeded l key d → ¬ StartedNow history l key) :
    Latest (e :: history) key loader data := by
  obtain ⟨hnow, newer, older, hpresent, hnewer⟩ := h
  refine ⟨(startedNow_cons he).mpr (Or.inr hnow), e :: newer, older, ?_, fun l d hmem hnow' => ?_⟩
  · rw [present_cons he, hpresent]
    rfl
  · rcases List.mem_cons.mp hmem with heq | hmem
    · rcases (startedNow_cons he).mp hnow' with heq' | hold
      · rw [heq'] at heq
        cases heq
      · exact hother l d heq.symm hold
    · rcases (startedNow_cons he).mp hnow' with heq' | hold
      · refine (hstarted l key heq' l d (mem_of_mem_present ?_) rfl).elim
        rw [hpresent]
        exact List.mem_append_left _ hmem
      · exact hnewer l d hmem hold

end History

/-! ### The invariant -/

structure Inv (w : World κ ν) : Prop where
  valid : ∀ key entry, w.cache.store key = some entry → entry.generation = w.cache.generation
  snapshot : ∀ key entry, w.cache.store key = some entry →
    (∃ loader, Latest w.history key loader entry.data) ∨ entry.fetchedAt = 0 ∧ entry.data = none
  slot : ∀ key entry loader, w.cache.store key = some entry → entry.inflight = some loader →
    w.pending loader = some (key, w.cache.generation)
  owned : ∀ loader key, w.pending loader = some (key, w.cache.generation) →
    ∃ entry, w.cache.store key = some entry ∧ entry.inflight = some loader
  past : ∀ loader key g, w.pending loader = some (key, g) →
    g ≤ w.cache.generation ∧ loader < w.issued
  now : ∀ loader key g, w.pending loader = some (key, g) →
    (StartedNow w.history loader key ↔ g = w.cache.generation)
  known : ∀ loader key data, .succeeded loader key data ∈ w.history → loader < w.issued
  single : ∀ newer loader key older, w.history = newer ++ .started loader key :: older →
    (∀ e ∈ newer, ¬ Ends loader key e) → w.pending loader = some (key, w.cache.generation)
  apart : ∀ newest loader key newer loader' older,
    w.history = newest ++ .started loader key :: (newer ++ .started loader' key :: older) →
    ∃ e ∈ newer, Ends loader' key e
  freed : ∀ newer loader key older, w.history = newer ++ .failed loader key :: older →
    StartedNow older loader key → (∀ e ∈ newer, ∀ l, e ≠ .started l key) →
    ∀ entry, w.cache.store key = some entry → entry.inflight = none

omit [DecidableEq κ] in
theorem inv_init : Inv (⟨⟨fun _ => none, 0⟩, fun _ => none, 0, []⟩ : World κ ν) where
  valid _ _ h := by cases h
  snapshot _ _ h := by cases h
  slot _ _ _ h := by cases h
  owned _ _ h := by cases h
  past _ _ _ h := by cases h
  now _ _ _ h := by cases h
  known _ _ _ h := by cases h
  single newer _ _ _ h := by simp at h
  apart newest _ _ _ _ _ h := by simp at h
  freed newer _ _ _ h := by simp at h

section Steps

variable {w : World κ ν} {key₀ : κ} {l : LoaderId} {g : ℕ} {e : Happened κ ν}

omit [DecidableEq κ] in
/-- Every entry is of the present generation. -/
theorem Inv.valid_eq (h : Inv w) (key : κ) : w.cache.valid key = w.cache.store key := by
  unfold Cache.valid
  cases hentry : w.cache.store key with
  | none => rfl
  | some entry => exact if_pos (decide_eq_true (h.valid key entry hentry))

theorem store_put (c : Cache κ ν) (key key' : κ) (entry : Entry ν) :
    (c.put key entry).store key' = if key' = key then some entry else c.store key' :=
  Function.update_apply ..

/-- A load is started when none is in flight for its key. -/
theorem Inv.begun (h : Inv w) (hnone : w.cache.joined key₀ = none) : Inv (w.begun key₀) := by
  unfold Cache.joined at hnone
  rw [h.valid_eq] at hnone
  have hfree : ∀ entry, w.cache.store key₀ = some entry → entry.inflight = none := by
    intro entry hentry
    rw [hentry] at hnone
    exact hnone
  have hold : ∀ {loader key g}, w.pending loader = some (key, g) → loader ≠ w.issued :=
    fun hpending => (h.past _ _ _ hpending).2.ne
  have hstarted : (Happened.started w.issued key₀ : Happened κ ν) ≠ .invalidated := nofun
  have hlatest : ∀ key loader data, Latest w.history key loader data →
      Latest (.started w.issued key₀ :: w.history) key loader data := by
    intro key loader data hl
    refine hl.cons hstarted (fun l k heq l' d hmem => ?_) nofun
    cases heq
    exact (h.known l' key d hmem).ne'
  constructor
  · intro key entry hentry
    dsimp only [World.begun] at hentry ⊢
    rw [store_put] at hentry
    split at hentry
    · cases hentry
      rfl
    · exact h.valid key entry hentry
  · intro key entry hentry
    dsimp only [World.begun] at hentry ⊢
    rw [store_put] at hentry
    split at hentry
    next hkey =>
      cases hentry
      dsimp only [Cache.revalidating]
      rw [h.valid_eq, hkey]
      cases hcached : w.cache.store key₀ with
      | none => exact Or.inr ⟨rfl, rfl⟩
      | some cached =>
        exact (h.snapshot key₀ cached hcached).imp (fun ⟨loader, hl⟩ => ⟨loader, hlatest _ _ _ hl⟩) id
    next => exact (h.snapshot key entry hentry).imp (fun ⟨loader, hl⟩ => ⟨loader, hlatest _ _ _ hl⟩) id
  · intro key entry loader hentry hinflight
    dsimp only [World.begun] at hentry ⊢
    rw [store_put] at hentry
    split at hentry
    next hkey =>
      cases hentry
      cases hinflight
      rw [Function.update_self, hkey]
      rfl
    next =>
      have hpending := h.slot key entry loader hentry hinflight
      rw [Function.update_of_ne (hold hpending)]
      exact hpending
  · intro loader key hpending
    dsimp only [World.begun] at hpending ⊢
    rw [store_put]
    by_cases hloader : loader = w.issued
    · rw [hloader, Function.update_self] at hpending
      cases hpending
      rw [if_pos rfl, hloader]
      exact ⟨_, rfl, rfl⟩
    · rw [Function.update_of_ne hloader] at hpending
      obtain ⟨entry, hentry, hinflight⟩ := h.owned loader key hpending
      have hne : key ≠ key₀ := by
        rintro rfl
        rw [hfree entry hentry] at hinflight
        cases hinflight
      rw [if_neg hne]
      exact ⟨entry, hentry, hinflight⟩
  · intro loader key g hpending
    dsimp only [World.begun] at hpending ⊢
    by_cases hloader : loader = w.issued
    · rw [hloader, Function.update_self] at hpending
      cases hpending
      exact ⟨le_rfl, hloader.le.trans_lt (Nat.lt_succ_self _)⟩
    · rw [Function.update_of_ne hloader] at hpending
      have hpast := h.past loader key g hpending
      exact ⟨hpast.1, hpast.2.trans (Nat.lt_succ_self _)⟩
  · intro loader key g hpending
    dsimp only [World.begun] at hpending ⊢
    rw [startedNow_cons hstarted]
    by_cases hloader : loader = w.issued
    · rw [hloader, Function.update_self] at hpending
      cases hpending
      exact iff_of_true (Or.inl (by rw [hloader])) rfl
    · rw [Function.update_of_ne hloader] at hpending
      refine Iff.trans (or_iff_right fun heq => ?_) (h.now loader key g hpending)
      cases heq
      exact hloader rfl
  · intro loader key data hmem
    rcases List.mem_cons.mp hmem with heq | hmem
    · cases heq
    · exact (h.known loader key data hmem).trans (Nat.lt_succ_self _)
  · intro newer loader key older hsplit hnot
    dsimp only [World.begun] at hsplit ⊢
    cases newer with
    | nil =>
      obtain ⟨heq, -⟩ := List.cons.inj hsplit
      cases heq
      exact Function.update_self ..
    | cons first newer =>
      have hpending := h.single newer loader key older (List.cons.inj hsplit).2
        fun e he => hnot e (List.mem_cons_of_mem _ he)
      rw [Function.update_of_ne (hold hpending)]
      exact hpending
  · intro newest loader key newer loader' older hsplit
    dsimp only [World.begun] at hsplit
    cases newest with
    | nil =>
      obtain ⟨heq, hrest⟩ := List.cons.inj hsplit
      cases heq
      by_contra hnot
      push Not at hnot
      -- The earlier load would still hold the slot.
      have hpending := h.single newer loader' key₀ older hrest hnot
      obtain ⟨entry, hentry, hinflight⟩ := h.owned loader' key₀ hpending
      rw [hfree entry hentry] at hinflight
      cases hinflight
    | cons first newest =>
      exact h.apart newest loader key newer loader' older (List.cons.inj hsplit).2
  · intro newer loader key older hsplit hnow hnone' entry hentry
    dsimp only [World.begun] at hsplit hentry
    cases newer with
    | nil =>
      obtain ⟨heq, -⟩ := List.cons.inj hsplit
      cases heq
    | cons first newer =>
      obtain ⟨heq, hrest⟩ := List.cons.inj hsplit
      have hne : key ≠ key₀ := by
        rintro rfl
        exact hnone' first List.mem_cons_self w.issued heq.symm
      rw [store_put, if_neg hne] at hentry
      exact h.freed newer loader key older hrest hnow
        (fun e he => hnone' e (List.mem_cons_of_mem _ he)) entry hentry

/-- A load settles: a load of the present generation leaves the entry of its key with a free slot
and a right snapshot, and one from before leaves all entries. -/
theorem Inv.settled (h : Inv w) (hpending₀ : w.pending l = some (key₀, g))
    (he : e = .failed l key₀ ∨ ∃ data, e = .succeeded l key₀ data) {c : Cache κ ν}
    (hgeneration : c.generation = w.cache.generation)
    (hother : ∀ key, ¬ (key = key₀ ∧ g = w.cache.generation) → c.store key = w.cache.store key)
    (hself : g = w.cache.generation → ∀ entry, c.store key₀ = some entry →
      entry.generation = w.cache.generation ∧ entry.inflight = none ∧
        ((∃ loader, Latest (e :: w.history) key₀ loader entry.data) ∨
          entry.fetchedAt = 0 ∧ entry.data = none)) :
    Inv { w with cache := c, pending := Function.update w.pending l none,
                 history := e :: w.history } := by
  have hvalid : e ≠ .invalidated := by
    rcases he with rfl | ⟨data, rfl⟩ <;> nofun
  have hstart : ∀ loader key, e ≠ .started loader key := by
    intro loader key
    rcases he with rfl | ⟨data, rfl⟩ <;> nofun
  have hcases : ∀ key entry, c.store key = some entry →
      (key = key₀ ∧ g = w.cache.generation) ∨ ¬ (key = key₀ ∧ g = w.cache.generation) ∧
        w.cache.store key = some entry := by
    intro key entry hentry
    by_cases hkey : key = key₀ ∧ g = w.cache.generation
    · exact Or.inl hkey
    · rw [hother key hkey] at hentry
      exact Or.inr ⟨hkey, hentry⟩
  have hupdate : ∀ loader key g', Function.update w.pending l none loader = some (key, g') →
      loader ≠ l ∧ w.pending loader = some (key, g') := by
    intro loader key g' hp
    have hne : loader ≠ l := by
      rintro rfl
      rw [Function.update_self] at hp
      cases hp
    rw [Function.update_of_ne hne] at hp
    exact ⟨hne, hp⟩
  constructor
  · intro key entry hentry
    dsimp only at hentry ⊢
    rw [hgeneration]
    rcases hcases key entry hentry with ⟨rfl, hg⟩ | ⟨_, hold⟩
    · exact (hself hg entry hentry).1
    · exact h.valid key entry hold
  · intro key entry hentry
    dsimp only at hentry ⊢
    rcases hcases key entry hentry with ⟨rfl, hg⟩ | ⟨hkey, hold⟩
    · exact (hself hg entry hentry).2.2
    · refine (h.snapshot key entry hold).imp (fun ⟨loader, hl⟩ => ⟨loader, ?_⟩) id
      refine hl.cons hvalid (fun l k heq => (hstart l k heq).elim) fun l' d heq hnow => ?_
      -- A success of the key that counts is of the present generation.
      rcases he with rfl | ⟨data, rfl⟩
      · cases heq
      · cases heq
        exact hkey ⟨rfl, (h.now _ _ _ hpending₀).mp hnow⟩
  · intro key entry loader hentry hinflight
    dsimp only at hentry ⊢
    rw [hgeneration]
    rcases hcases key entry hentry with ⟨rfl, hg⟩ | ⟨hkey, hold⟩
    · rw [(hself hg entry hentry).2.1] at hinflight
      cases hinflight
    · have hpending := h.slot key entry loader hold hinflight
      have hne : loader ≠ l := by
        rintro rfl
        rw [hpending₀] at hpending
        cases hpending
        exact hkey ⟨rfl, rfl⟩
      rw [Function.update_of_ne hne]
      exact hpending
  · intro loader key hp
    dsimp only at hp ⊢
    rw [hgeneration] at hp
    obtain ⟨hne, hpending⟩ := hupdate _ _ _ hp
    obtain ⟨entry, hentry, hinflight⟩ := h.owned loader key hpending
    by_cases hkey : key = key₀ ∧ g = w.cache.generation
    · -- The slot belongs to the load that settles.
      obtain ⟨rfl, rfl⟩ := hkey
      obtain ⟨entry', hentry', hinflight'⟩ := h.owned l key hpending₀
      rw [hentry] at hentry'
      cases hentry'
      rw [hinflight] at hinflight'
      exact (hne (Option.some.inj hinflight')).elim
    · exact ⟨entry, (hother key hkey).trans hentry, hinflight⟩
  · intro loader key g' hp
    dsimp only at hp ⊢
    rw [hgeneration]
    exact h.past loader key g' (hupdate _ _ _ hp).2
  · intro loader key g' hp
    dsimp only at hp ⊢
    rw [hgeneration, startedNow_cons hvalid, or_iff_right (hstart loader key)]
    exact h.now loader key g' (hupdate _ _ _ hp).2
  · intro loader key data hmem
    rcases List.mem_cons.mp hmem with heq | hmem
    · rcases he with rfl | ⟨data', rfl⟩
      · cases heq
      · cases heq
        exact (h.past _ _ _ hpending₀).2
    · exact h.known loader key data hmem
  · intro newer loader key older hsplit hnot
    dsimp only at hsplit ⊢
    rw [hgeneration]
    cases newer with
    | nil => exact (hstart loader key (List.cons.inj hsplit).1).elim
    | cons first newer =>
      obtain ⟨rfl, hrest⟩ := List.cons.inj hsplit
      have hpending := h.single newer loader key older hrest
        fun e' he' => hnot e' (List.mem_cons_of_mem _ he')
      have hne : loader ≠ l := by
        rintro rfl
        rw [hpending₀] at hpending
        cases hpending
        exact hnot e List.mem_cons_self (Or.inr he)
      rw [Function.update_of_ne hne]
      exact hpending
  · intro newest loader key newer loader' older hsplit
    dsimp only at hsplit
    cases newest with
    | nil => exact (hstart loader key (List.cons.inj hsplit).1).elim
    | cons first newest =>
      exact h.apart newest loader key newer loader' older (List.cons.inj hsplit).2
  · intro newer loader key older hsplit hnow hnone entry hentry
    dsimp only at hsplit hentry
    rcases hcases key entry hentry with ⟨rfl, hg⟩ | ⟨hkey, hold⟩
    · exact (hself hg entry hentry).2.1
    · cases newer with
      | nil =>
        obtain ⟨heq, hrest⟩ := List.cons.inj hsplit
        rcases he with rfl | ⟨data, rfl⟩
        · cases heq
          rw [← hrest] at hnow
          exact (hkey ⟨rfl, (h.now _ _ _ hpending₀).mp hnow⟩).elim
        · cases heq
      | cons first newer =>
        exact h.freed newer loader key older (List.cons.inj hsplit).2 hnow
          (fun e' he' => hnone e' (List.mem_cons_of_mem _ he')) entry hold

omit [DecidableEq κ] in
theorem Inv.invalidate (h : Inv w) : Inv w.invalidate where
  valid _ _ hentry := by cases hentry
  snapshot _ _ hentry := by cases hentry
  slot _ _ _ hentry := by cases hentry
  owned loader key hpending := by
    have hpast := (h.past loader key _ hpending).1
    dsimp only [World.invalidate, Cache.invalidate] at hpast
    omega
  past loader key g hpending := by
    have hpast := h.past loader key g hpending
    exact ⟨hpast.1.trans (Nat.le_succ _), hpast.2⟩
  now loader key g hpending := by
    have hpast := (h.past loader key g hpending).1
    refine iff_of_false (fun hnow => by cases hnow) ?_
    dsimp only [World.invalidate, Cache.invalidate]
    omega
  known loader key data hmem := by
    rcases List.mem_cons.mp hmem with heq | hmem
    · cases heq
    · exact h.known loader key data hmem
  single newer loader key older hsplit hnot := by
    cases newer with
    | nil =>
      obtain ⟨heq, -⟩ := List.cons.inj hsplit
      cases heq
    | cons first newer =>
      obtain ⟨rfl, -⟩ := List.cons.inj hsplit
      exact (hnot _ List.mem_cons_self (Or.inl rfl)).elim
  apart newest loader key newer loader' older hsplit := by
    cases newest with
    | nil =>
      obtain ⟨heq, -⟩ := List.cons.inj hsplit
      cases heq
    | cons first newest =>
      exact h.apart newest loader key newer loader' older (List.cons.inj hsplit).2
  freed _ _ _ _ _ _ _ _ hentry := by cases hentry

theorem Inv.fulfil (h : Inv w) (loader : LoaderId) (now : Millis) (data : Option ν) :
    Inv (w.fulfil loader now data) := by
  unfold World.fulfil
  split
  next => exact h
  next key g hpending =>
    have hnow : g = w.cache.generation → Latest (.succeeded loader key data :: w.history) key
        loader data := by
      intro hg
      exact ⟨List.mem_cons_of_mem _ ((h.now _ _ _ hpending).mpr hg), [], present w.history, rfl,
        fun l d hmem => by cases hmem⟩
    refine h.settled hpending (Or.inr ⟨data, rfl⟩) ?_ (fun k hk => ?_) fun hg entry hentry => ?_
    · unfold Cache.fulfilled
      split <;> rfl
    · unfold Cache.fulfilled
      split
      next hg => rw [store_put, if_neg fun heq => hk ⟨heq, hg.symm⟩]
      next => rfl
    · unfold Cache.fulfilled at hentry
      rw [if_pos hg.symm, store_put, if_pos rfl] at hentry
      cases hentry
      exact ⟨hg, rfl, Or.inl ⟨loader, hnow hg⟩⟩

theorem Inv.reject (h : Inv w) (loader : LoaderId) : Inv (w.reject loader) := by
  unfold World.reject
  split
  next => exact h
  next key g hpending =>
    refine h.settled hpending (Or.inl rfl) ?_ (fun k hk => ?_) fun hg entry hentry => ?_
    · unfold Cache.rejected
      split_ifs
      · split
        · split <;> rfl
        · rfl
      · rfl
    · unfold Cache.rejected
      split_ifs with hg
      · split
        next => 
          split
          next => rw [store_put, if_neg fun heq => hk ⟨heq, hg.symm⟩]
          next => rfl
        next => rfl
      · rfl
    · obtain ⟨current, hcurrent, hinflight⟩ := h.owned loader key (hg ▸ hpending)
      unfold Cache.rejected at hentry
      rw [if_pos hg.symm, hcurrent] at hentry
      dsimp only at hentry
      rw [if_pos hinflight, store_put, if_pos rfl] at hentry
      cases hentry
      refine ⟨h.valid key current hcurrent, rfl, ?_⟩
      refine (h.snapshot key current hcurrent).imp (fun ⟨l, hl⟩ => ⟨l, ?_⟩) id
      exact hl.cons nofun (fun _ _ heq => by cases heq) fun _ _ heq => by cases heq

/-- A read that calls its loader has found no load to join, and one that does not changes nothing. -/
theorem read_cases (w : World κ ν) (key : κ) (force : Bool) (now : Millis) :
    (w.Starts key force now ∧ w.cache.joined key = none ∧ w.read key force now = w.begun key) ∨
      ¬ w.Starts key force now ∧ w.read key force now = w := by
  have hkept : ∀ answer, w.cache.readCached key force now w.issued = (w.cache, answer, false) →
      ¬ w.Starts key force now ∧ w.read key force now = w := by
    intro answer hread
    have hnot : ¬ w.Starts key force now := by
      unfold World.Starts
      rw [hread]
      exact Bool.false_ne_true
    refine ⟨hnot, ?_⟩
    unfold World.read
    rw [if_neg hnot, hread]
  cases hserves : w.cache.serves key force now with
  | some entry =>
    refine Or.inr (hkept (.fresh entry.data) ?_)
    unfold Cache.readCached
    rw [hserves]
  | none =>
    cases hjoined : w.cache.joined key with
    | some inflight =>
      refine Or.inr (hkept (w.cache.awaiting key inflight) ?_)
      unfold Cache.readCached
      rw [hserves, hjoined]
    | none =>
      have hread : w.cache.readCached key force now w.issued =
          (w.cache.put key (w.cache.revalidating key w.issued), w.cache.awaiting key w.issued,
            true) := by
        unfold Cache.readCached
        rw [hserves, hjoined]
      have hstarts : w.Starts key force now := by
        unfold World.Starts
        rw [hread]
      refine Or.inl ⟨hstarts, rfl, ?_⟩
      unfold World.read World.begun
      rw [if_pos hstarts, hread]

theorem Inv.call (h : Inv w) (a : Call κ ν) : Inv (w.call a) := by
  cases a with
  | read key force now =>
    change Inv (w.read key force now)
    rcases read_cases w key force now with ⟨_, hnone, heq⟩ | ⟨_, heq⟩
    · rw [heq]
      exact h.begun hnone
    · rw [heq]
      exact h
  | fulfil loader now data => exact h.fulfil loader now data
  | reject loader => exact h.reject loader
  | invalidate => exact h.invalidate

theorem inv_reach (hw : (system κ ν).Reach w) : Inv w := by
  refine System.Inductive.reach (S := system κ ν) ⟨?_, ?_⟩ hw
  · rintro w rfl
    exact inv_init
  · rintro w a w' h rfl
    exact h.call a

/-- What a read answers with, by the entry that it finds. -/
theorem Inv.answered (h : Inv w) {key : κ} {force : Bool} {now : Millis} {data : Option ν}
    (hanswer : w.answer key force now = .fresh data ∨
      ∃ d l, data = some d ∧ w.answer key force now = .stale d l) :
    ∃ entry, w.cache.store key = some entry ∧ entry.data = data ∧
      (Cache.isFresh entry now = true ∨ data ≠ none) := by
  unfold World.answer Cache.readCached at hanswer
  cases hserves : w.cache.serves key force now with
  | some entry =>
    rw [hserves] at hanswer
    obtain ⟨hentry, hfresh⟩ := Option.filter_eq_some_iff.mp hserves
    rw [h.valid_eq] at hentry
    refine ⟨entry, hentry, ?_, Or.inl (Bool.and_eq_true_iff.mp hfresh).1⟩
    rcases hanswer with heq | ⟨d, l, _, heq⟩
    · exact ReadOutcome.fresh.inj heq
    · cases heq
  | none =>
    rw [hserves] at hanswer
    -- An answer that waits for a load is stale when there is a snapshot.
    have hawaiting : ∀ l, w.cache.awaiting key l = .fresh data ∨
        (∃ d l', data = some d ∧ w.cache.awaiting key l = .stale d l') →
        ∃ entry, w.cache.store key = some entry ∧ entry.data = data ∧
          (Cache.isFresh entry now = true ∨ data ≠ none) := by
      intro l hl
      unfold Cache.awaiting at hl
      rw [h.valid_eq] at hl
      cases hdata : (w.cache.store key).bind Entry.data with
      | none =>
        rw [hdata] at hl
        rcases hl with heq | ⟨_, _, _, heq⟩ <;> cases heq
      | some d =>
        rw [hdata] at hl
        rcases hl with heq | ⟨d', l', rfl, heq⟩
        · cases heq
        · cases heq
          obtain ⟨entry, hentry, hd⟩ := Option.bind_eq_some_iff.mp hdata
          exact ⟨entry, hentry, hd, Or.inr (Option.some_ne_none _)⟩
    cases hjoined : w.cache.joined key with
    | some inflight =>
      rw [hjoined] at hanswer
      exact hawaiting inflight hanswer
    | none =>
      rw [hjoined] at hanswer
      exact hawaiting w.issued hanswer

end Steps

/-- In every run of the module: what a read answers with as fresh or stale, at a clock that is past
the first fifteen seconds of the epoch, is the latest success of a load of its key that was started
since the last invalidation. Two loads of a key are never started without a settlement of the first
one, or an invalidation, between them. A failed load changes no snapshot, and when it was started
since the last invalidation the next read of its key that is not served fresh starts a load. -/
theorem data_cache_fence {w : World κ ν} (hw : (system κ ν).Reach w) :
    (∀ key force now data, freshMs ≤ now →
      (w.answer key force now = .fresh data ∨
        ∃ d l, data = some d ∧ w.answer key force now = .stale d l) →
      ∃ loader, Latest w.history key loader data) ∧
    (∀ newest loader key newer loader' older,
      w.history = newest ++ .started loader key :: (newer ++ .started loader' key :: older) →
      ∃ e ∈ newer, Ends loader' key e) ∧
    (∀ loader key, ((w.reject loader).cache.store key).map (fun e => (e.fetchedAt, e.data)) =
      (w.cache.store key).map fun e => (e.fetchedAt, e.data)) ∧
    ∀ newer loader key older, w.history = newer ++ .failed loader key :: older →
      StartedNow older loader key → (∀ e ∈ newer, ∀ l, e ≠ .started l key) →
      ∀ force now, (∃ data, w.answer key force now = .fresh data) ∨ w.Starts key force now := by
  have h := inv_reach hw
  refine ⟨fun key force now data hnow hanswer => ?_, h.apart, fun loader key => ?_,
    fun newer loader key older hsplit hstarted hnone force now => ?_⟩
  · obtain ⟨entry, hentry, rfl, hserved⟩ := h.answered hanswer
    rcases h.snapshot key entry hentry with hlatest | ⟨hzero, hdata⟩
    · exact hlatest
    · -- An entry that waits for its first load is not fresh.
      rcases hserved with hfresh | hsome
      · have hsoon := of_decide_eq_true hfresh
        rw [hzero, Int.sub_zero] at hsoon
        exact (Int.not_le.mpr hsoon hnow).elim
      · exact (hsome hdata).elim
  · unfold World.reject
    split
    next => rfl
    next key' g _ =>
      dsimp only
      unfold Cache.rejected
      split_ifs
      · split
        next current hcurrent =>
          split
          next =>
            rw [store_put]
            split
            next hkey =>
              rw [hkey, hcurrent]
              rfl
            next => rfl
          next => rfl
        next => rfl
      · rfl
  · have hfree := h.freed newer loader key older hsplit hstarted hnone
    have hjoined : w.cache.joined key = none := by
      unfold Cache.joined
      rw [h.valid_eq]
      cases hentry : w.cache.store key with
      | none => rfl
      | some entry => exact hfree entry hentry
    unfold World.answer World.Starts Cache.readCached
    rw [hjoined]
    cases w.cache.serves key force now with
    | some entry => exact Or.inl ⟨entry.data, rfl⟩
    | none => exact Or.inr rfl

/-! ### What the fence does not cover -/

def after (calls : List (Call ℕ ℕ)) : World ℕ ℕ :=
  calls.foldl World.call ⟨⟨fun _ => none, 0⟩, fun _ => none, 0, []⟩

theorem reach_after (calls : List (Call ℕ ℕ)) : (system ℕ ℕ).Reach (after calls) := by
  induction calls using List.reverseRecOn with
  | nil => exact .init rfl
  | append_singleton calls a ih =>
    unfold after
    rw [List.foldl_append]
    exact .step ih rfl

def firstLoad : World ℕ ℕ := after [.read 0 false 20000]

theorem data_cache_fence_first : (∃ loader, Latest (firstLoad.fulfil 0 20001 (some 7)).history
    (0 : ℕ) loader (some 7)) := by
  have hreach : (system ℕ ℕ).Reach (firstLoad.fulfil 0 20001 (some 7)) :=
    reach_after [.read 0 false 20000, .fulfil 0 20001 (some 7)]
  exact (data_cache_fence hreach).1 0 false 20002 (some 7) (by decide) (Or.inl rfl)

/-- Fifteen seconds from the epoch, an entry that waits for its first load counts as fresh. A load
from before an invalidation may fail while one from after it holds the slot. -/
theorem data_cache_unfenced :
    (¬ ∀ w : World ℕ ℕ, (system ℕ ℕ).Reach w → ∀ key force now data,
      w.answer key force now = .fresh data → ∃ loader, Latest w.history key loader data) ∧
    ¬ ∀ w : World ℕ ℕ, (system ℕ ℕ).Reach w → ∀ newer loader key older,
      w.history = newer ++ .failed loader key :: older →
      (∀ e ∈ newer, ∀ l, e ≠ .started l key) →
      ∀ force now, (∃ data, w.answer key force now = .fresh data) ∨ w.Starts key force now := by
  constructor
  · intro h
    obtain ⟨loader, _, newer, older, hpresent, _⟩ := h (after [.read 0 false 0])
      (reach_after _) 0 false 0 none rfl
    have hmem : Happened.succeeded loader 0 none ∈
        present (after [.read 0 false 0]).history := by
      rw [hpresent]
      exact List.mem_append_right _ List.mem_cons_self
    rcases List.mem_cons.mp hmem with heq | hmem
    · cases heq
    · cases hmem
  · intro h
    have hnext := h (after [.read 0 false 20000, .invalidate, .read 0 false 20000, .reject 0])
      (reach_after _) [] 0 0 [.started 1 0, .invalidated, .started 0 0] rfl
      (fun e he => by cases he) true 20000
    rcases hnext with ⟨data, hfresh⟩ | hstarts
    · cases hfresh
    · revert hstarts
      decide

end CampusQuest.DataCache
