import CampusQuest.Runs
import Mathlib.Data.Set.Insert
import Mathlib.Logic.Function.Basic
import Mathlib.Order.Defs.LinearOrder

/-!
Leases with fencing tokens. A worker claims a row for a while under a token of its own, acts
outside, and then finishes or releases the row by compare-and-set on that token. A claim
whose term has passed may be taken over, so several workers may hold tokens for one row at
once; a token that was superseded never matches the row again.
-/

namespace Leases

open Runs

/-- The claim columns of a row and the mark that its work is done. -/
structure Lease (T τ : Type*) where
  claimedAt : Option T
  expiresAt : Option T
  token : Option τ
  doneAt : Option T
  deriving DecidableEq

namespace Lease

variable {T τ : Type*}

def unclaimed : Lease T τ := ⟨none, none, none, none⟩

/-- A claim that nobody has proved finished: either marker counts, and the term does not. -/
def unfinished (l : Lease T τ) : Bool :=
  l.doneAt.isNone && (l.claimedAt.isSome || l.token.isSome)

/-- A claim whose term has not passed; a claim without a term never passes. -/
def live [LT T] [DecidableLT T] (l : Lease T τ) (now : T) : Bool :=
  l.claimedAt.isSome && l.doneAt.isNone && l.expiresAt.elim true fun stop => now < stop

def take (l : Lease T τ) (now expiresAt : T) (t : τ) : Lease T τ :=
  { l with claimedAt := some now, expiresAt := some expiresAt, token := some t }

def clear (l : Lease T τ) : Lease T τ :=
  { l with claimedAt := none, expiresAt := none, token := none }

variable [DecidableEq τ]

def release (l : Lease T τ) (t : τ) : Lease T τ :=
  if l.token = some t ∧ l.claimedAt.isSome = true then l.clear else l

def releaseOpen (l : Lease T τ) (t : τ) : Lease T τ :=
  if l.doneAt = none then l.release t else l

/-- Finish by compare-and-set on the token; a mark that is there stays. -/
def finish (l : Lease T τ) (t : τ) (at' : T) : Lease T τ :=
  if l.token = some t ∧ l.doneAt = none then { l with doneAt := some at' } else l

theorem release_cases (l : Lease T τ) (t : τ) :
    l.release t = l ∨ (l.token = some t ∧ l.release t = l.clear) := by
  unfold release
  split
  next h => exact Or.inr ⟨h.1, rfl⟩
  next => exact Or.inl rfl

theorem releaseOpen_cases (l : Lease T τ) (t : τ) :
    l.releaseOpen t = l ∨ (l.token = some t ∧ l.doneAt = none ∧ l.releaseOpen t = l.clear) := by
  unfold releaseOpen
  split
  next hopen =>
    rcases l.release_cases t with h | ⟨htoken, h⟩
    · exact Or.inl h
    · exact Or.inr ⟨htoken, hopen, h⟩
  next => exact Or.inl rfl

theorem finish_cases (l : Lease T τ) (t : τ) (at' : T) : l.finish t at' = l ∨
    (l.token = some t ∧ l.doneAt = none ∧ l.finish t at' = { l with doneAt := some at' }) := by
  unfold finish
  split
  next h => exact Or.inr ⟨h.1, h.2, rfl⟩
  next => exact Or.inl rfl

/-- A superseded token changes nothing. -/
theorem release_of_superseded {l : Lease T τ} {t : τ} (h : l.token ≠ some t) :
    l.release t = l := if_neg fun hmatch => h hmatch.1

theorem finish_of_superseded {l : Lease T τ} {t : τ} {at' : T} (h : l.token ≠ some t) :
    l.finish t at' = l := if_neg fun hmatch => h hmatch.1

end Lease

/-- How far the holder of a token is with its work outside. -/
inductive Progress
  | held
  | sent
  | gone
  | failed
  deriving DecidableEq, Repr

structure Holding (ι τ : Type*) where
  row : ι
  token : τ
  progress : Progress

/-- Rows with leases and workers with tokens. `drawn` are the tokens handed out so far and
`gone` the rows whose work has succeeded outside, each with the token it was done under. -/
@[ext] structure State (ι ω T τ : Type*) where
  lease : ι → Option (Lease T τ)
  holding : ω → Option (Holding ι τ)
  drawn : Set τ
  gone : Set (τ × ι)

inductive Event (ι ω τ : Type*)
  | appear (i : ι)
  | take (w : ω) (i : ι) (t : τ)
  | send (w : ω)
  | settle (w : ω) (success : Bool)
  | finish (w : ω)
  | release (w : ω)
  | drop (w : ω)
  | repair (i : ι) (t : τ)

variable {ι ω T τ : Type*}

namespace State

def modify [DecidableEq ι] (s : State ι ω T τ) (i : ι) (f : Lease T τ → Lease T τ) : State ι ω T τ :=
  { s with lease := Function.update s.lease i ((s.lease i).map f) }

def setHolding [DecidableEq ω] (s : State ι ω T τ) (w : ω) (h : Option (Holding ι τ)) :
    State ι ω T τ :=
  { s with holding := Function.update s.holding w h }

def remember (s : State ι ω T τ) (h : Holding ι τ) (success : Bool) : State ι ω T τ :=
  { s with gone := if success then insert (h.token, h.row) s.gone else s.gone }

end State

/-- Tokens are drawn once and held by one worker each, and finished work has succeeded
outside under the token that the row carries. -/
structure Fenced (s : State ι ω T τ) : Prop where
  held : ∀ w h, s.holding w = some h → h.token ∈ s.drawn
  written : ∀ i l t, s.lease i = some l → l.token = some t → t ∈ s.drawn
  logged : ∀ t i, (t, i) ∈ s.gone → t ∈ s.drawn
  own : ∀ w w' h h', s.holding w = some h → s.holding w' = some h' → h.token = h'.token → w = w'
  settled : ∀ w h, s.holding w = some h → h.progress = .gone → (h.token, h.row) ∈ s.gone
  pending : ∀ w h i, s.holding w = some h → h.progress ≠ .gone → (h.token, i) ∉ s.gone
  done : ∀ i l, s.lease i = some l → l.doneAt ≠ none → ∃ t, l.token = some t ∧ (t, i) ∈ s.gone

section Updates

variable {s : State ι ω T τ}

theorem modify_lease [DecidableEq ι] {i j : ι} {f : Lease T τ → Lease T τ} {l : Lease T τ}
    (h : (s.modify i f).lease j = some l) :
    (j = i ∧ ∃ l₀, s.lease i = some l₀ ∧ l = f l₀) ∨ (j ≠ i ∧ s.lease j = some l) := by
  change Function.update s.lease i _ j = _ at h
  by_cases hj : j = i
  · subst hj
    rw [Function.update_self, Option.map_eq_some_iff] at h
    obtain ⟨l₀, hl₀, rfl⟩ := h
    exact Or.inl ⟨rfl, l₀, hl₀, rfl⟩
  · rw [Function.update_of_ne hj] at h
    exact Or.inr ⟨hj, h⟩

theorem setHolding_holding [DecidableEq ω] {w v : ω} {x : Option (Holding ι τ)} {h : Holding ι τ}
    (hget : (s.setHolding w x).holding v = some h) :
    (v = w ∧ x = some h) ∨ (v ≠ w ∧ s.holding v = some h) := by
  change Function.update s.holding w x v = _ at hget
  by_cases hv : v = w
  · subst hv
    rw [Function.update_self] at hget
    exact Or.inl ⟨rfl, hget⟩
  · rw [Function.update_of_ne hv] at hget
    exact Or.inr ⟨hv, hget⟩

end Updates

namespace Fenced

variable {s : State ι ω T τ}

/-- A change of a lease may drop its token and may mark work that has succeeded. -/
theorem modify [DecidableEq ι] (hs : Fenced s) (i : ι) (f : Lease T τ → Lease T τ)
    (htoken : ∀ l t, s.lease i = some l → (f l).token = some t → t ∈ s.drawn)
    (hdone : ∀ l, s.lease i = some l → (f l).doneAt ≠ none →
      ∃ t, (f l).token = some t ∧ (t, i) ∈ s.gone) : Fenced (s.modify i f) := by
  refine ⟨hs.held, fun j l t hl ht => ?_, hs.logged, hs.own, hs.settled, hs.pending,
    fun j l hl hmark => ?_⟩
  · rcases modify_lease hl with ⟨rfl, l₀, hl₀, rfl⟩ | ⟨_, hold⟩
    · exact htoken l₀ t hl₀ ht
    · exact hs.written j l t hold ht
  · rcases modify_lease hl with ⟨rfl, l₀, hl₀, rfl⟩ | ⟨_, hold⟩
    · exact hdone l₀ hl₀ hmark
    · exact hs.done j l hold hmark

/-- A change that keeps the lease or clears it. -/
theorem modify_clear [DecidableEq ι] (hs : Fenced s) (i : ι) (f : Lease T τ → Lease T τ)
    (hf : ∀ l, s.lease i = some l → f l = l ∨ (l.doneAt = none ∧ f l = l.clear)) :
    Fenced (s.modify i f) := by
  refine hs.modify i f (fun l t hl ht => ?_) fun l hl hmark => ?_
  · rcases hf l hl with h | ⟨_, h⟩
    · rw [h] at ht
      exact hs.written i l t hl ht
    · rw [h] at ht
      cases ht
  · rcases hf l hl with h | ⟨hopen, h⟩
    · rw [h] at hmark ⊢
      exact hs.done i l hl hmark
    · rw [h] at hmark
      exact absurd hopen hmark

theorem drop [DecidableEq ω] (hs : Fenced s) (w : ω) : Fenced (s.setHolding w none) := by
  have hold : ∀ {v h}, (s.setHolding w none).holding v = some h → s.holding v = some h := by
    intro v h hget
    rcases setHolding_holding hget with ⟨_, hnone⟩ | ⟨_, hold⟩
    · cases hnone
    · exact hold
  exact ⟨fun v h hv => hs.held v h (hold hv), hs.written, hs.logged,
    fun v v' h h' hv hv' => hs.own v v' h h' (hold hv) (hold hv'),
    fun v h hv => hs.settled v h (hold hv), fun v h i hv => hs.pending v h i (hold hv), hs.done⟩

/-- A holder goes on with its work under the same token. -/
theorem proceed [DecidableEq ω] (hs : Fenced s) {w : ω} {h : Holding ι τ} (hheld : s.holding w = some h)
    (hprogress : h.progress ≠ .gone) (p : Progress) (success : Bool)
    (hp : p = .gone ↔ success = true) :
    Fenced ((s.setHolding w (some { h with progress := p })).remember h success) := by
  have hholding : ∀ {v x}, (s.setHolding w (some { h with progress := p })).holding v = some x →
      (v = w ∧ x = { h with progress := p }) ∨ (v ≠ w ∧ s.holding v = some x) := by
    intro v x hget
    rcases setHolding_holding hget with ⟨hv, hx⟩ | hold
    · cases hx
      exact Or.inl ⟨hv, rfl⟩
    · exact Or.inr hold
  have htoken : ∀ {v x}, (s.setHolding w (some { h with progress := p })).holding v = some x →
      ∃ y, s.holding v = some y ∧ y.token = x.token := by
    intro v x hget
    rcases hholding hget with ⟨rfl, rfl⟩ | ⟨_, hold⟩
    · exact ⟨h, hheld, rfl⟩
    · exact ⟨x, hold, rfl⟩
  have hgone : ∀ {e}, e ∈ ((s.setHolding w (some { h with progress := p })).remember h
      success).gone ↔ e ∈ s.gone ∨ (success = true ∧ e = (h.token, h.row)) := by
    intro e
    unfold State.remember State.setHolding
    cases success with
    | false => simp
    | true => simp [or_comm]
  refine ⟨fun v x hv => ?_, hs.written, fun t i hmem => ?_, fun v v' x x' hv hv' heq => ?_,
    fun v x hv hx => ?_, fun v x i hv hx hmem => ?_, fun i l hl hmark => ?_⟩
  · obtain ⟨y, hy, heq⟩ := htoken hv
    exact heq ▸ hs.held v y hy
  · rcases hgone.mp hmem with hold | ⟨_, heq⟩
    · exact hs.logged t i hold
    · cases heq
      exact hs.held w h hheld
  · obtain ⟨y, hy, hyx⟩ := htoken hv
    obtain ⟨y', hy', hyx'⟩ := htoken hv'
    exact hs.own v v' y y' hy hy' (by rw [hyx, hyx', heq])
  · rcases hholding hv with ⟨rfl, rfl⟩ | ⟨_, hold⟩
    · exact hgone.mpr (Or.inr ⟨hp.mp hx, rfl⟩)
    · exact hgone.mpr (Or.inl (hs.settled v x hold hx))
  · rcases hgone.mp hmem with hbefore | ⟨hsuccess, heq⟩
    · rcases hholding hv with ⟨rfl, rfl⟩ | ⟨_, hold⟩
      · exact hs.pending v h i hheld hprogress hbefore
      · exact hs.pending v x i hold hx hbefore
    · simp only [Prod.mk.injEq] at heq
      rcases hholding hv with ⟨rfl, rfl⟩ | ⟨hne, hold⟩
      · exact hx (hp.mpr hsuccess)
      · exact hne (hs.own v w x h hold hheld heq.1)
  · obtain ⟨t, ht, hmem⟩ := hs.done i l hl hmark
    exact ⟨t, ht, hgone.mpr (Or.inl hmem)⟩

/-- A claim under a fresh token. -/
theorem take [DecidableEq ι] [DecidableEq ω] (hs : Fenced s) {w : ω} {i : ι} {t : τ} {now stop : T} {l : Lease T τ}
    (hlease : s.lease i = some l) (hopen : l.doneAt = none) (hfresh : t ∉ s.drawn) :
    Fenced { (s.modify i fun l => l.take now stop t).setHolding w (some ⟨i, t, .held⟩) with
      drawn := insert t s.drawn } := by
  refine ⟨fun v x hv => ?_, fun j m u hm hu => ?_, fun u j hmem => ?_,
    fun v v' x x' hv hv' heq => ?_, fun v x hv hx => ?_, fun v x j hv hx hmem => ?_,
    fun j m hm hmark => ?_⟩
  · rcases setHolding_holding hv with ⟨_, hx⟩ | ⟨_, hold⟩
    · cases hx
      exact Set.mem_insert t s.drawn
    · exact Set.mem_insert_of_mem t (hs.held v x hold)
  · rcases modify_lease hm with ⟨rfl, l₀, hl₀, rfl⟩ | ⟨_, hold⟩
    · cases hu
      exact Set.mem_insert t s.drawn
    · exact Set.mem_insert_of_mem t (hs.written j m u hold hu)
  · exact Set.mem_insert_of_mem t (hs.logged u j hmem)
  · rcases setHolding_holding hv with ⟨rfl, hx⟩ | ⟨_, hold⟩
    · rcases setHolding_holding hv' with ⟨rfl, _⟩ | ⟨_, hold'⟩
      · rfl
      · cases hx
        have heq : t = x'.token := heq
        rw [heq] at hfresh
        exact absurd (hs.held v' x' hold') hfresh
    · rcases setHolding_holding hv' with ⟨rfl, hx'⟩ | ⟨_, hold'⟩
      · cases hx'
        have heq : x.token = t := heq
        rw [← heq] at hfresh
        exact absurd (hs.held v x hold) hfresh
      · exact hs.own v v' x x' hold hold' heq
  · rcases setHolding_holding hv with ⟨_, hx'⟩ | ⟨_, hold⟩
    · cases hx'
      cases hx
    · exact hs.settled v x hold hx
  · rcases setHolding_holding hv with ⟨_, hx'⟩ | ⟨_, hold⟩
    · cases hx'
      exact hfresh (hs.logged t j hmem)
    · exact hs.pending v x j hold hx hmem
  · rcases modify_lease hm with ⟨rfl, l₀, hl₀, rfl⟩ | ⟨_, hold⟩
    · rw [hlease] at hl₀
      cases hl₀
      exact absurd hopen hmark
    · exact hs.done j m hold hmark

/-- A failed holder releases at most open work: finished work has succeeded under the token
that the row carries. -/
theorem failed_open (hs : Fenced s) {w : ω} {h : Holding ι τ} {l : Lease T τ}
    (hheld : s.holding w = some h) (hfailed : h.progress = .failed)
    (hl : s.lease h.row = some l) (htoken : l.token = some h.token) : l.doneAt = none := by
  by_contra hdone
  obtain ⟨t, ht, hmem⟩ := hs.done h.row l hl hdone
  rw [htoken] at ht
  cases ht
  exact hs.pending w h h.row hheld (by rw [hfailed]; decide) hmem

end Fenced

section Steps

variable [DecidableEq ι] [DecidableEq ω] [DecidableEq τ]

/-- A claim needs open work and draws a fresh token; whether a live lease stands in its way
is left to the user of this machine. A worker may disappear at any time. -/
inductive Step (s : State ι ω T τ) : Event ι ω τ → State ι ω T τ → Prop
  | appear (i : ι) (hnew : s.lease i = none) :
      Step s (.appear i) { s with lease := Function.update s.lease i (some .unclaimed) }
  | take (w : ω) (i : ι) (t : τ) (now stop : T) (l : Lease T τ) (hlease : s.lease i = some l)
      (hopen : l.doneAt = none) (hidle : s.holding w = none) (hfresh : t ∉ s.drawn) :
      Step s (.take w i t) { (s.modify i fun l => l.take now stop t).setHolding w
        (some ⟨i, t, .held⟩) with drawn := insert t s.drawn }
  | send (w : ω) (h : Holding ι τ) (hheld : s.holding w = some h) (hprogress : h.progress = .held) :
      Step s (.send w) (s.setHolding w (some { h with progress := .sent }))
  | settle (w : ω) (h : Holding ι τ) (success : Bool) (hheld : s.holding w = some h)
      (hprogress : h.progress = .sent) :
      Step s (.settle w success) ((s.setHolding w (some { h with
        progress := if success then .gone else .failed })).remember h success)
  | finish (w : ω) (h : Holding ι τ) (at' : T) (hheld : s.holding w = some h)
      (hprogress : h.progress = .gone) :
      Step s (.finish w) ((s.modify h.row fun l => l.finish h.token at').setHolding w none)
  | release (w : ω) (h : Holding ι τ) (hheld : s.holding w = some h)
      (hprogress : h.progress = .failed) :
      Step s (.release w) ((s.modify h.row fun l => l.release h.token).setHolding w none)
  | drop (w : ω) : Step s (.drop w) (s.setHolding w none)
  | repair (i : ι) (t : τ) : Step s (.repair i t) (s.modify i fun l => l.releaseOpen t)

/-- No worker holds a token and no row is claimed at first. -/
structure Initial (s : State ι ω T τ) : Prop where
  idle : ∀ w, s.holding w = none
  unclaimed : ∀ i l, s.lease i = some l → l = .unclaimed
  gone : s.gone = ∅

def machine (ι ω T τ : Type*) [DecidableEq ι] [DecidableEq ω] [DecidableEq τ] :
    System (State ι ω T τ) (Event ι ω τ) where
  init := Initial
  step s e s' := Step s e s'

variable {s s' : State ι ω T τ} {e : Event ι ω τ}

theorem fenced_inductive : (machine ι ω T τ).Inductive Fenced := by
  constructor
  · intro s hinit
    refine ⟨fun w h hw => ?_, fun i l t hl ht => ?_, fun t i hmem => ?_, fun w w' h h' hw => ?_,
      fun w h hw => ?_, fun w h i hw => ?_, fun i l hl hmark => ?_⟩
    · rw [hinit.idle] at hw
      cases hw
    · rw [hinit.unclaimed i l hl] at ht
      cases ht
    · rw [hinit.gone] at hmem
      cases hmem
    · rw [hinit.idle] at hw
      cases hw
    · rw [hinit.idle] at hw
      cases hw
    · rw [hinit.idle] at hw
      cases hw
    · rw [hinit.unclaimed i l hl] at hmark
      exact absurd rfl hmark
  · intro s e s' hs hstep
    cases hstep with
    | appear i hnew =>
      have hlease : ∀ {j l}, Function.update s.lease i (some .unclaimed) j = some l →
          l = .unclaimed ∨ s.lease j = some l := by
        intro j l hl
        by_cases hj : j = i
        · subst hj
          rw [Function.update_self] at hl
          cases hl
          exact Or.inl rfl
        · rw [Function.update_of_ne hj] at hl
          exact Or.inr hl
      refine ⟨hs.held, fun j l t hl ht => ?_, hs.logged, hs.own, hs.settled, hs.pending,
        fun j l hl hmark => ?_⟩
      · rcases hlease hl with rfl | hold
        · cases ht
        · exact hs.written j l t hold ht
      · rcases hlease hl with rfl | hold
        · exact absurd rfl hmark
        · exact hs.done j l hold hmark
    | take w i t now stop l hlease hopen _ hfresh => exact hs.take hlease hopen hfresh
    | send w h hheld hprogress =>
      exact hs.proceed hheld (by rw [hprogress]; decide) .sent false (by decide)
    | settle w h success hheld hprogress =>
      exact hs.proceed hheld (by rw [hprogress]; decide) _ success (by cases success <;> decide)
    | finish w h at' hheld hprogress =>
      have hfinish : Fenced (s.modify h.row fun l => l.finish h.token at') := by
        refine hs.modify _ _ (fun l t hl ht => ?_) fun l hl hmark => ?_
        · rcases l.finish_cases h.token at' with heq | ⟨_, _, heq⟩
          · rw [heq] at ht
            exact hs.written _ l t hl ht
          · rw [heq] at ht
            exact hs.written _ l t hl ht
        · rcases l.finish_cases h.token at' with heq | ⟨htoken, _, heq⟩
          · rw [heq] at hmark ⊢
            exact hs.done _ l hl hmark
          · rw [heq]
            exact ⟨h.token, htoken, hs.settled w h hheld hprogress⟩
      exact hfinish.drop w
    | release w h hheld hprogress =>
      have hrelease : Fenced (s.modify h.row fun l => l.release h.token) := by
        refine hs.modify_clear _ _ fun l hl => ?_
        rcases l.release_cases h.token with heq | ⟨htoken, heq⟩
        · exact Or.inl heq
        · exact Or.inr ⟨hs.failed_open hheld hprogress hl htoken, heq⟩
      exact hrelease.drop w
    | drop w => exact hs.drop w
    | repair i t =>
      refine hs.modify_clear _ _ fun l _ => ?_
      rcases l.releaseOpen_cases t with heq | ⟨_, hopen, heq⟩
      · exact Or.inl heq
      · exact Or.inr ⟨hopen, heq⟩

/-- What one step does to the lease of a row: nothing, a claim under a fresh token, the
completion under the token it carries, or the release of open work. -/
theorem Step.lease_cases (hstep : Step s e s') (hs : Fenced s) {i : ι} {l : Lease T τ}
    (hl : s.lease i = some l) : ∃ l', s'.lease i = some l' ∧ (l' = l ∨
      (l.doneAt = none ∧ ((∃ t now stop, t ∉ s.drawn ∧ l' = l.take now stop t) ∨
        (∃ t at', (t, i) ∈ s.gone ∧ l.token = some t ∧ l' = { l with doneAt := some at' }) ∨
          l' = l.clear))) := by
  have hmodify : ∀ {j : ι} {f : Lease T τ → Lease T τ},
      (s.modify j f).lease i = some (if i = j then f l else l) := by
    intro j f
    change Function.update s.lease j _ i = _
    by_cases hi : i = j
    · subst hi
      rw [Function.update_self, hl, if_pos rfl]
      rfl
    · rw [Function.update_of_ne hi, hl, if_neg hi]
  cases hstep with
  | appear j hnew =>
    refine ⟨l, ?_, Or.inl rfl⟩
    change Function.update s.lease j _ i = _
    rw [Function.update_of_ne, hl]
    rintro rfl
    rw [hnew] at hl
    cases hl
  | take w j t now stop l₀ hlease hopen _ hfresh =>
    refine ⟨_, hmodify, ?_⟩
    split
    next hi =>
      subst hi
      rw [hl] at hlease
      cases hlease
      exact Or.inr ⟨hopen, Or.inl ⟨t, now, stop, hfresh, rfl⟩⟩
    next => exact Or.inl rfl
  | send | settle | drop => exact ⟨l, hl, Or.inl rfl⟩
  | finish w h at' hheld hprogress =>
    refine ⟨_, hmodify, ?_⟩
    split
    next hi =>
      subst hi
      rcases l.finish_cases h.token at' with heq | ⟨htoken, hopen, heq⟩
      · exact Or.inl heq
      · exact Or.inr ⟨hopen, Or.inr (Or.inl ⟨h.token, at', hs.settled w h hheld hprogress, htoken,
          heq⟩)⟩
    next => exact Or.inl rfl
  | release w h hheld hprogress =>
    refine ⟨_, hmodify, ?_⟩
    split
    next hi =>
      subst hi
      rcases l.release_cases h.token with heq | ⟨htoken, heq⟩
      · exact Or.inl heq
      · exact Or.inr ⟨hs.failed_open hheld hprogress hl htoken, Or.inr (Or.inr heq)⟩
    next => exact Or.inl rfl
  | repair j t =>
    refine ⟨_, hmodify, ?_⟩
    split
    next =>
      rcases l.releaseOpen_cases t with heq | ⟨_, hopen, heq⟩
      · exact Or.inl heq
      · exact Or.inr ⟨hopen, Or.inr (Or.inr heq)⟩
    next => exact Or.inl rfl

/-- Tokens are never forgotten. -/
theorem Step.drawn (hstep : Step s e s') {t : τ} (ht : t ∈ s.drawn) : t ∈ s'.drawn := by
  cases hstep with
  | take => exact Set.mem_insert_of_mem _ ht
  | appear | send | settle | finish | release | drop | repair => exact ht

/-- Finished work is never touched again. -/
theorem Step.done (hstep : Step s e s') (hs : Fenced s) {i : ι} {l : Lease T τ}
    (hl : s.lease i = some l) (hdone : l.doneAt ≠ none) : s'.lease i = some l := by
  obtain ⟨l', hl', rfl | ⟨hopen, _⟩⟩ := hstep.lease_cases hs hl
  · exact hl'
  · exact absurd hopen hdone

/-- A row that does not carry a drawn token never carries it again. -/
theorem Step.superseded (hstep : Step s e s') (hs : Fenced s) {i : ι} {l : Lease T τ} {t : τ}
    (hl : s.lease i = some l) (ht : t ∈ s.drawn) (htoken : l.token ≠ some t) :
    ∃ l', s'.lease i = some l' ∧ l'.token ≠ some t := by
  obtain ⟨l', hl', hcases⟩ := hstep.lease_cases hs hl
  refine ⟨l', hl', ?_⟩
  rcases hcases with rfl | ⟨_, ⟨u, now, stop, hfresh, rfl⟩ | ⟨u, at', _, _, rfl⟩ | rfl⟩
  · exact htoken
  · intro heq
    cases heq
    exact hfresh ht
  · exact htoken
  · intro heq
    cases heq

end Steps

end Leases
