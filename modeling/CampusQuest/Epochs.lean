import CampusQuest.Runs
import Mathlib.Data.Finset.Card
import Mathlib.Order.Interval.Finset.Nat

/-!
Rows that are claimed again and again without fencing. Each claim of a row takes the row's
next number, and its holder calls outside at most once under that number or passes. A claim
takes nothing from the holders before it, so several may be at work on one row; the numbers
tell them apart, and a holder is current while no later claim was made.
-/

namespace Epochs

open Runs System

structure Holding (ι : Type*) where
  row : ι
  epoch : ℕ
  called : Bool

@[ext] structure State (ι ω : Type*) where
  epoch : ι → ℕ
  holding : ω → Option (Holding ι)
  calls : List (ι × ℕ)

inductive Event (ι ω : Type*)
  | claim (w : ω) (i : ι)
  | call (w : ω)
  | pass (w : ω)
  | drop (w : ω)

variable {ι ω : Type*}

/-- Numbers are given out once, and at most one call is made under each. -/
structure Sound (s : State ι ω) : Prop where
  held : ∀ w h, s.holding w = some h → 1 ≤ h.epoch ∧ h.epoch ≤ s.epoch h.row
  own : ∀ w w' h h', s.holding w = some h → s.holding w' = some h' → h.row = h'.row →
    h.epoch = h'.epoch → w = w'
  logged : ∀ i n, (i, n) ∈ s.calls → 1 ≤ n ∧ n ≤ s.epoch i
  pending : ∀ w h, s.holding w = some h → h.called = false → (h.row, h.epoch) ∉ s.calls
  once : s.calls.Nodup

def Current (s : State ι ω) : Prop := ∀ w h, s.holding w = some h → h.epoch = s.epoch h.row

/-- At most as many calls are made for a row as it was claimed. -/
theorem Sound.calls_le [DecidableEq ι] {s : State ι ω} (hs : Sound s) (i : ι) :
    (s.calls.filter fun c => c.1 = i).length ≤ s.epoch i := by
  have hmap : ((s.calls.filter fun c => c.1 = i).map Prod.snd).Nodup := by
    refine List.Nodup.map_on (fun a ha b hb hab => ?_) (hs.once.filter _)
    have hrow : a.1 = i := by simpa using (List.mem_filter.mp ha).2
    have hrow' : b.1 = i := by simpa using (List.mem_filter.mp hb).2
    exact Prod.ext (hrow.trans hrow'.symm) hab
  have hsub : ((s.calls.filter fun c => c.1 = i).map Prod.snd).toFinset ⊆
      Finset.Icc 1 (s.epoch i) := by
    intro n hn
    obtain ⟨c, hc, rfl⟩ := List.mem_map.mp (List.mem_toFinset.mp hn)
    obtain ⟨hmem, hrow⟩ := List.mem_filter.mp hc
    have hrow : c.1 = i := by simpa using hrow
    have hbounds := hs.logged c.1 c.2 hmem
    rw [hrow] at hbounds
    exact Finset.mem_Icc.mpr hbounds
  have hcard := Finset.card_le_card hsub
  rw [List.toFinset_card_of_nodup hmap, List.length_map, Nat.card_Icc] at hcard
  omega

/-- A number that nobody can call under again may be logged. -/
theorem Sound.log {s : State ι ω} (hs : Sound s) {i : ι} {n : ℕ} (hbounds : 1 ≤ n ∧ n ≤ s.epoch i)
    (hfresh : (i, n) ∉ s.calls)
    (hspent : ∀ w h, s.holding w = some h → h.called = false → (h.row, h.epoch) ≠ (i, n)) :
    Sound { s with calls := s.calls ++ [(i, n)] } := by
  refine ⟨hs.held, hs.own, fun j m hmem => ?_, fun w h hget hcalled hmem => ?_, ?_⟩
  · rcases List.mem_append.mp hmem with hold | hnew
    · exact hs.logged j m hold
    · rw [List.mem_singleton, Prod.mk.injEq] at hnew
      obtain ⟨rfl, rfl⟩ := hnew
      exact hbounds
  · rcases List.mem_append.mp hmem with hold | hnew
    · exact hs.pending w h hget hcalled hold
    · exact hspent w h hget hcalled (List.mem_singleton.mp hnew)
  · rw [List.nodup_append]
    refine ⟨hs.once, List.nodup_singleton _, fun a ha b hb => ?_⟩
    rw [List.mem_singleton] at hb
    subst hb
    exact fun heq => hfresh (heq ▸ ha)

variable [DecidableEq ω]

def State.setHolding (s : State ι ω) (w : ω) (h : Option (Holding ι)) : State ι ω :=
  { s with holding := Function.update s.holding w h }

def State.claim [DecidableEq ι] (s : State ι ω) (w : ω) (i : ι) : State ι ω :=
  { s.setHolding w (some ⟨i, s.epoch i + 1, false⟩) with
    epoch := Function.update s.epoch i (s.epoch i + 1) }

inductive Step [DecidableEq ι] (s : State ι ω) : Event ι ω → State ι ω → Prop
  | claim (w : ω) (i : ι) (hidle : s.holding w = none) : Step s (.claim w i) (s.claim w i)
  | call (w : ω) (h : Holding ι) (hheld : s.holding w = some h) (hcalled : h.called = false) :
      Step s (.call w) { s.setHolding w (some { h with called := true }) with
        calls := s.calls ++ [(h.row, h.epoch)] }
  | pass (w : ω) (h : Holding ι) (hheld : s.holding w = some h) :
      Step s (.pass w) (s.setHolding w (some { h with called := true }))
  | drop (w : ω) : Step s (.drop w) (s.setHolding w none)

structure Initial (s : State ι ω) : Prop where
  holding : ∀ w, s.holding w = none
  calls : s.calls = []

def machine (ι ω : Type*) [DecidableEq ι] [DecidableEq ω] : System (State ι ω) (Event ι ω) where
  init := Initial
  step := Step

theorem setHolding_holding {s : State ι ω} {w v : ω} {x : Option (Holding ι)} {h : Holding ι}
    (hget : (s.setHolding w x).holding v = some h) :
    (v = w ∧ x = some h) ∨ (v ≠ w ∧ s.holding v = some h) := by
  change Function.update s.holding w x v = _ at hget
  by_cases hv : v = w
  · subst hv
    rw [Function.update_self] at hget
    exact Or.inl ⟨rfl, hget⟩
  · rw [Function.update_of_ne hv] at hget
    exact Or.inr ⟨hv, hget⟩

theorem epoch_le_claim [DecidableEq ι] (s : State ι ω) (w : ω) (i j : ι) :
    s.epoch j ≤ (s.claim w i).epoch j := by
  change _ ≤ Function.update s.epoch i _ j
  by_cases hj : j = i
  · subst hj
    rw [Function.update_self]
    omega
  · rw [Function.update_of_ne hj]

theorem epoch_claim_self [DecidableEq ι] (s : State ι ω) (w : ω) (i : ι) :
    (s.claim w i).epoch i = s.epoch i + 1 := Function.update_self ..

namespace Sound

variable {s s' : State ι ω} {e : Event ι ω}

theorem claim [DecidableEq ι] (hs : Sound s) (w : ω) (i : ι) : Sound (s.claim w i) := by
  have hholding : ∀ {v h}, (s.claim w i).holding v = some h →
      (v = w ∧ h = ⟨i, s.epoch i + 1, false⟩) ∨ (v ≠ w ∧ s.holding v = some h) := by
    intro v h hget
    rcases setHolding_holding (s := s) hget with ⟨hv, hx⟩ | hold
    · cases hx
      exact Or.inl ⟨hv, rfl⟩
    · exact Or.inr hold
  have hnew : ∀ {v h}, s.holding v = some h → h.row = i → h.epoch ≠ s.epoch i + 1 := by
    intro v h hget hrow heq
    have hle := (hs.held v h hget).2
    rw [hrow] at hle
    omega
  refine ⟨fun v h hget => ?_, fun v v' h h' hget hget' hrow hepoch => ?_, fun j n hmem => ?_,
    fun v h hget hcalled hmem => ?_, hs.once⟩
  · rcases hholding hget with ⟨rfl, rfl⟩ | ⟨_, hold⟩
    · exact ⟨Nat.le_add_left 1 _, le_of_eq (epoch_claim_self s v i).symm⟩
    · obtain ⟨hpos, hle⟩ := hs.held v h hold
      exact ⟨hpos, hle.trans (epoch_le_claim s w i h.row)⟩
  · rcases hholding hget with ⟨rfl, rfl⟩ | ⟨_, hold⟩
    · rcases hholding hget' with ⟨rfl, _⟩ | ⟨_, hold'⟩
      · rfl
      · exact absurd hepoch.symm (hnew hold' hrow.symm)
    · rcases hholding hget' with ⟨rfl, rfl⟩ | ⟨_, hold'⟩
      · exact absurd hepoch (hnew hold hrow)
      · exact hs.own v v' h h' hold hold' hrow hepoch
  · obtain ⟨hpos, hle⟩ := hs.logged j n hmem
    exact ⟨hpos, hle.trans (epoch_le_claim s w i j)⟩
  · rcases hholding hget with ⟨rfl, rfl⟩ | ⟨_, hold⟩
    · have hle := (hs.logged i (s.epoch i + 1) hmem).2
      omega
    · exact hs.pending v h hold hcalled hmem

/-- A holder that may not call any more, whether or not it has called. -/
theorem pass (hs : Sound s) {w : ω} {h : Holding ι} (hheld : s.holding w = some h) :
    Sound (s.setHolding w (some { h with called := true })) := by
  have hholding : ∀ {v x}, (s.setHolding w (some { h with called := true })).holding v = some x →
      ∃ y, s.holding v = some y ∧ y.row = x.row ∧ y.epoch = x.epoch ∧
        (x.called = false → y = x) := by
    intro v x hget
    rcases setHolding_holding hget with ⟨rfl, hx⟩ | ⟨_, hold⟩
    · cases hx
      exact ⟨h, hheld, rfl, rfl, fun hfalse => by cases hfalse⟩
    · exact ⟨x, hold, rfl, rfl, fun _ => rfl⟩
  refine ⟨fun v x hget => ?_, fun v v' x x' hget hget' hrow hepoch => ?_, hs.logged,
    fun v x hget hx => ?_, hs.once⟩
  · obtain ⟨y, hy, hrow, hepoch, _⟩ := hholding hget
    have hbounds := hs.held v y hy
    rw [hrow, hepoch] at hbounds
    exact hbounds
  · obtain ⟨y, hy, hyrow, hyepoch, _⟩ := hholding hget
    obtain ⟨y', hy', hyrow', hyepoch', _⟩ := hholding hget'
    exact hs.own v v' y y' hy hy' (by rw [hyrow, hyrow', hrow]) (by rw [hyepoch, hyepoch', hepoch])
  · obtain ⟨y, hy, _, _, hsame⟩ := hholding hget
    obtain rfl := hsame hx
    exact hs.pending v y hy hx

theorem call (hs : Sound s) {w : ω} {h : Holding ι} (hheld : s.holding w = some h)
    (hcalled : h.called = false) :
    Sound { s.setHolding w (some { h with called := true }) with
      calls := s.calls ++ [(h.row, h.epoch)] } := by
  refine (hs.pass hheld).log (hs.held w h hheld) (hs.pending w h hheld hcalled) ?_
  intro v x hget hx heq
  rw [Prod.mk.injEq] at heq
  rcases setHolding_holding hget with ⟨rfl, hself⟩ | ⟨hne, hold⟩
  · cases hself
    cases hx
  · exact hne (hs.own v w x h hold hheld heq.1 heq.2)

theorem drop (hs : Sound s) (w : ω) : Sound (s.setHolding w none) := by
  have hold : ∀ {v h}, (s.setHolding w none).holding v = some h → s.holding v = some h := by
    intro v h hget
    rcases setHolding_holding hget with ⟨_, hnone⟩ | ⟨_, hold⟩
    · cases hnone
    · exact hold
  exact ⟨fun v h hv => hs.held v h (hold hv),
    fun v v' h h' hv hv' => hs.own v v' h h' (hold hv) (hold hv'), hs.logged,
    fun v h hv => hs.pending v h (hold hv), hs.once⟩

end Sound

variable [DecidableEq ι]

theorem sound_inductive : (machine ι ω).Inductive Sound := by
  constructor
  · intro s hs
    have hnone : ∀ {w h}, s.holding w ≠ some h := by
      intro w h hget
      rw [hs.holding w] at hget
      cases hget
    have hempty : ∀ {c}, c ∉ s.calls := by
      intro c hmem
      rw [hs.calls] at hmem
      cases hmem
    exact ⟨fun w h hget => absurd hget hnone, fun w w' h h' hget => absurd hget hnone,
      fun i n hmem => absurd hmem hempty, fun w h hget => absurd hget hnone,
      hs.calls ▸ List.nodup_nil⟩
  · intro s e s' hs hstep
    cases hstep with
    | claim w i _ => exact hs.claim w i
    | call w h hheld hcalled => exact hs.call hheld hcalled
    | pass w h hheld => exact hs.pass hheld
    | drop w => exact hs.drop w

/-- A claim of a row while nobody is at work on it. -/
def Vacant (s : State ι ω) : Event ι ω → Prop
  | .claim _ i => ∀ w h, s.holding w = some h → h.row ≠ i
  | _ => True

/-- Holders stay current while rows are claimed only when nobody is at work on them. -/
theorem current_step {s s' : State ι ω} {e : Event ι ω} (hs : Current s) (hstep : Step s e s')
    (hvacant : Vacant s e) : Current s' := by
  cases hstep with
  | claim w i _ =>
    intro v h hget
    rcases setHolding_holding (s := s) hget with ⟨_, hx⟩ | ⟨_, hold⟩
    · cases hx
      exact (epoch_claim_self s w i).symm
    · have hrow := hvacant v h hold
      have hkeep : (s.claim w i).epoch h.row = s.epoch h.row := Function.update_of_ne hrow ..
      rw [hkeep]
      exact hs v h hold
  | call w x hheld _ | pass w x hheld =>
    intro v h hget
    rcases setHolding_holding (s := s) hget with ⟨_, hx⟩ | ⟨_, hold⟩
    · cases hx
      exact hs w x hheld
    · exact hs v h hold
  | drop w =>
    intro v h hget
    rcases setHolding_holding hget with ⟨_, hnone⟩ | ⟨_, hold⟩
    · cases hnone
    · exact hs v h hold

end Epochs
