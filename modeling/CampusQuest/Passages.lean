import CampusQuest.Locking

/-!
What the private state of a process tells about its past. A state that is entered only where the
store allows it has been entered so by the same process. A thing that can be taken only while it
is there is held by one process at most, and what only its holder can do is done once.
-/

namespace Runs.System

variable {σ α : Type*} {S : System σ α}

theorem Run.split {s s' : σ} {l : List (σ × α × σ)} (hrun : S.Run s l s') {e : σ × α × σ}
    (he : e ∈ l) :
    ∃ l₁ l₂, l = l₁ ++ e :: l₂ ∧ S.Run s l₁ e.1 ∧ S.step e.1 e.2.1 e.2.2 := by
  induction hrun with
  | nil => cases he
  | @snoc s₁ s₂ a l hrun hstep ih =>
    rcases List.mem_append.mp he with hold | hnew
    · obtain ⟨l₁, l₂, rfl, hbefore, hat⟩ := ih hold
      exact ⟨l₁, l₂ ++ [(s₁, a, s₂)], by simp, hbefore, hat⟩
    · obtain rfl := List.mem_singleton.mp hnew
      exact ⟨l, [], rfl, hrun, hstep⟩

/-- What the steps keep holds at the end, once it has held after a step. -/
theorem Run.kept_since {Q : σ → Prop} {s s' : σ} {l : List (σ × α × σ)} (hs : S.Reach s)
    (hkeep : ∀ s a s', S.Reach s → Q s → S.step s a s' → Q s') (hrun : S.Run s l s')
    {e : σ × α × σ} (he : e ∈ l) (hQ : Q e.2.2) : Q s' := by
  induction hrun with
  | nil => cases he
  | @snoc s₁ s₂ a l hrun hstep ih =>
    rcases List.mem_append.mp he with hold | hnew
    · exact hkeep s₁ a s₂ (hrun.reach hs) (ih hold) hstep
    · obtain rfl := List.mem_singleton.mp hnew
      exact hQ

end Runs.System

namespace Locking

open Runs

/-- What holds of a process after a move of one. -/
theorem of_update {ι Λ : Type*} [DecidableEq ι] {f : ι → Λ} {R : Λ → Prop} {i j : ι} {m : Λ}
    (h : R (Function.update f j m i)) : i ≠ j ∧ R (f i) ∨ i = j ∧ R m := by
  by_cases hij : i = j
  · subst hij
    rw [Function.update_self] at h
    exact Or.inr ⟨rfl, h⟩
  · rw [Function.update_of_ne hij] at h
    exact Or.inl ⟨hij, h⟩

namespace Protocol

variable {ι σ κ Λ α : Type*} {P : Protocol σ κ Λ α} {I initial : σ → Prop}
  {c c' : Config ι σ Λ} {l : List (Config ι σ Λ × Move ι α × Config ι σ Λ)}

/-- Before a step of a run its process has passed a store with a property, and it has not been
back at its start since. -/
def Passed (P : Protocol σ κ Λ α) (l : List (Config ι σ Λ × Move ι α × Config ι σ Λ))
    (e : Config ι σ Λ × Move ι α × Config ι σ Λ) (H : σ → Prop) : Prop :=
  ∃ l₁ e₀ l₂ l₃, l = l₁ ++ e₀ :: l₂ ++ e :: l₃ ∧ e₀.2.1.1 = e.2.1.1 ∧ H e₀.1.store ∧
    ¬ P.start (e.1.proc e.2.1.1) ∧ ∀ e' ∈ l₂, ¬ P.start (e'.1.proc e.2.1.1)

theorem Passed.mono {e : Config ι σ Λ × Move ι α × Config ι σ Λ} {H H' : σ → Prop}
    (h : P.Passed l e H) (hH : ∀ e₀ ∈ l, H e₀.1.store → H' e₀.1.store) : P.Passed l e H' := by
  obtain ⟨l₁, e₀, l₂, l₃, rfl, hi, hpassed, hrest⟩ := h
  exact ⟨l₁, e₀, l₂, l₃, rfl, hi, hH e₀ (by simp) hpassed, hrest⟩

variable [DecidableEq ι]

/-- A process that is in a state has entered it in the run, at a store that allowed it, and has
stayed in such states since. -/
theorem Sound.entered (h : P.Sound I) (hinit : ∀ s, initial s → I s) {R : Λ → Prop}
    {H : σ → Prop} (hstart : ∀ m, P.start m → ¬ R m)
    (hread : ∀ m s m', P.known m s → P.read m s m' → R m' → R m ∨ H s)
    (hcommit : ∀ m s a m' s', P.known m s → P.commit m s a m' s' → R m' → R m ∨ H s)
    (hc : (P.system ι initial).init c) (hrun : (P.system ι initial).Run c l c') {i : ι}
    (hR : R (c'.proc i)) :
    ∃ l₁ e l₂, l = l₁ ++ e :: l₂ ∧ e.2.1.1 = i ∧ H e.1.store ∧ ∀ e' ∈ l₂, R (e'.1.proc i) := by
  induction hrun with
  | nil => exact absurd hR (hstart _ (hc.2 i))
  | @snoc c₁ c₂ a l hrun hstep ih =>
    have hcurrent := h.current hinit (hrun.reach (.init hc))
    -- Either the process was in such a state before, or this step has entered it.
    have hlast : R (c₁.proc i) ∨ a.1 = i ∧ H c₁.store := by
      cases hstep with
      | read j m hm hfree =>
        rcases of_update hR with ⟨_, hold⟩ | ⟨rfl, hnew⟩
        · exact Or.inl hold
        · exact (hread _ _ _ (hcurrent.known i) hm hnew).imp_right fun hH => ⟨rfl, hH⟩
      | commit j b m s' hm hfree =>
        rcases of_update hR with ⟨_, hold⟩ | ⟨rfl, hnew⟩
        · exact Or.inl hold
        · exact (hcommit _ _ _ _ _ (hcurrent.known i) hm hnew).imp_right fun hH => ⟨rfl, hH⟩
    rcases hlast with hbefore | ⟨hi, hH⟩
    · obtain ⟨l₁, e, l₂, rfl, hi, hH, hsince⟩ := ih hbefore
      refine ⟨l₁, e, l₂ ++ [(c₁, a, c₂)], by simp, hi, hH, fun e' he' => ?_⟩
      rcases List.mem_append.mp he' with hold | hnew
      · exact hsince e' hold
      · obtain rfl := List.mem_singleton.mp hnew
        exact hbefore
    · exact ⟨l, (c₁, a, c₂), [], rfl, hi, hH, fun _ he' => nomatch he'⟩

theorem Sound.passed (h : P.Sound I) (hinit : ∀ s, initial s → I s) {R : Λ → Prop}
    {H : σ → Prop} (hstart : ∀ m, P.start m → ¬ R m)
    (hread : ∀ m s m', P.known m s → P.read m s m' → R m' → R m ∨ H s)
    (hcommit : ∀ m s a m' s', P.known m s → P.commit m s a m' s' → R m' → R m ∨ H s)
    (hc : (P.system ι initial).init c) (hrun : (P.system ι initial).Run c l c')
    {e : Config ι σ Λ × Move ι α × Config ι σ Λ} (he : e ∈ l) (hR : R (e.1.proc e.2.1.1)) :
    P.Passed l e H := by
  obtain ⟨l', l₃, rfl, hbefore, _⟩ := hrun.split he
  obtain ⟨l₁, e₀, l₂, rfl, hi, hH, hsince⟩ :=
    h.entered hinit hstart hread hcommit hc hbefore hR
  exact ⟨l₁, e₀, l₂, l₃, rfl, hi, hH, fun hm => hstart _ hm hR,
    fun e' he' hm => hstart _ hm (hsince e' he')⟩

/-- A thing that is taken only while it is there, and that never comes back. -/
structure TakenOnce (P : Protocol σ κ Λ α) (I : σ → Prop) (holds : Λ → Prop)
    (spent : σ → Prop) : Prop where
  start : ∀ m, P.start m → ¬ holds m
  read : ∀ m s m', P.read m s m' → holds m' → holds m
  take : ∀ m s a m' s', I s → P.known m s → P.commit m s a m' s' → holds m' →
    holds m ∨ ¬ spent s ∧ spent s'
  gone : ∀ m s a m' s', I s → P.known m s → P.commit m s a m' s' → spent s → spent s'

variable {holds : Λ → Prop} {spent : σ → Prop}

/-- What one process holds is gone for the others. -/
theorem TakenOnce.holder (htaken : P.TakenOnce I holds spent) (h : P.Sound I)
    (hinit : ∀ s, initial s → I s) (hc : (P.system ι initial).Reach c) :
    (∀ i, holds (c.proc i) → spent c.store) ∧
      ∀ i j, holds (c.proc i) → holds (c.proc j) → i = j := by
  induction hc with
  | init hstart => exact ⟨fun i hi => absurd hi (htaken.start _ (hstart.2 i)),
      fun i _ hi => absurd hi (htaken.start _ (hstart.2 i))⟩
  | @step c₁ a c₂ hreach hstep ih =>
    have hcurrent := h.current hinit hreach
    obtain ⟨hspent, hunique⟩ := ih
    cases hstep with
    | read j m hm hfree =>
      have hbefore (i : ι) (hi : holds (Function.update c₁.proc j m i)) : holds (c₁.proc i) := by
        rcases of_update hi with ⟨_, hold⟩ | ⟨rfl, hnew⟩
        · exact hold
        · exact htaken.read _ _ _ hm hnew
      exact ⟨fun i hi => hspent i (hbefore i hi),
        fun i k hi hk => hunique i k (hbefore i hi) (hbefore k hk)⟩
    | commit j b m s' hm hfree =>
      have hinv := hcurrent.inv
      have hknown := hcurrent.known j
      have hbefore (i : ι) (hi : holds (Function.update c₁.proc j m i)) :
          holds (c₁.proc i) ∨ i = j ∧ ¬ spent c₁.store ∧ spent s' := by
        rcases of_update hi with ⟨_, hold⟩ | ⟨rfl, hnew⟩
        · exact Or.inl hold
        · exact (htaken.take _ _ _ _ _ hinv hknown hm hnew).imp_right fun h => ⟨rfl, h⟩
      constructor
      · intro i hi
        rcases hbefore i hi with hold | ⟨_, _, hnew⟩
        · exact htaken.gone _ _ _ _ _ hinv hknown hm (hspent i hold)
        · exact hnew
      · intro i k hi hk
        rcases hbefore i hi with hi | ⟨hij, hthere, _⟩
        · rcases hbefore k hk with hk | ⟨_, hthere, _⟩
          · exact hunique i k hi hk
          · exact absurd (hspent i hi) hthere
        · rcases hbefore k hk with hk | ⟨hkj, _, _⟩
          · exact absurd (hspent k hk) hthere
          · exact hij.trans hkj.symm

/-- What only the holder can do, and gives the thing up with, is done at most once. -/
theorem TakenOnce.used_once (htaken : P.TakenOnce I holds spent) (h : P.Sound I)
    (hinit : ∀ s, initial s → I s) {Y : α → Prop}
    (huse : ∀ m s a m' s', P.commit m s a m' s' → Y a → holds m ∧ ¬ holds m')
    (hc : (P.system ι initial).Reach c) (hrun : (P.system ι initial).Run c l c') :
    l.Pairwise fun e e' => ¬ ((∃ a, e.2.1.2 = some a ∧ Y a) ∧ ∃ a, e'.2.1.2 = some a ∧ Y a) := by
  refine (hrun.at_most_once
    (Q := fun c => spent c.store ∧ ∀ i, ¬ holds (c.proc i))
    (Y := fun e => ∃ a, e.2.1.2 = some a ∧ Y a)
    (fun c₁ a c₂ hc₁ hstep hQ => ?_) (fun c₁ a c₂ hc₁ hstep hY => ?_) hc).1
  · obtain ⟨hspent, hnone⟩ := hQ
    have hcurrent := h.current hinit hc₁
    cases hstep with
    | read j m hm hfree =>
      refine ⟨hspent, fun i hi => ?_⟩
      rcases of_update hi with ⟨_, hold⟩ | ⟨rfl, hnew⟩
      · exact hnone i hold
      · exact hnone i (htaken.read _ _ _ hm hnew)
    | commit j b m s' hm hfree =>
      have hinv := hcurrent.inv
      have hknown := hcurrent.known j
      refine ⟨htaken.gone _ _ _ _ _ hinv hknown hm hspent, fun i hi => ?_⟩
      rcases of_update hi with ⟨_, hold⟩ | ⟨rfl, hnew⟩
      · exact hnone i hold
      · rcases htaken.take _ _ _ _ _ hinv hknown hm hnew with hold | ⟨hthere, _⟩
        · exact hnone i hold
        · exact hthere hspent
  · obtain ⟨b, hb, hY⟩ := hY
    have hcurrent := h.current hinit hc₁
    obtain ⟨hspent, hunique⟩ := htaken.holder h hinit hc₁
    cases hstep with
    | read => cases hb
    | commit j _ m s' hm hfree =>
      obtain rfl := Option.some.inj hb
      obtain ⟨hheld, hgiven⟩ := huse _ _ _ _ _ hm hY
      refine ⟨fun hQ => hQ.2 j hheld, ?_, fun i hi => ?_⟩
      · exact htaken.gone _ _ _ _ _ hcurrent.inv (hcurrent.known j) hm (hspent j hheld)
      · rcases of_update hi with ⟨hij, hold⟩ | ⟨rfl, hnew⟩
        · exact hij (hunique i j hold hheld)
        · exact hgiven hnew

section Alone

variable {s s' : σ} {m m' : Λ} {a : α}

theorem update_alone (f : Unit → Λ) (m : Λ) : Function.update f () m = fun _ => m :=
  funext fun _ => Function.update_self ..

/-- The moves of a process that is alone. -/
theorem read_alone (hread : P.read m s m') :
    P.Step (⟨s, fun _ => m⟩ : Config Unit σ Λ) ((), none) ⟨s, fun _ => m'⟩ := by
  have hstep := Step.read (P := P) (⟨s, fun _ => m⟩ : Config Unit σ Λ) () m' hread
    fun _ hj => absurd rfl hj
  rwa [update_alone] at hstep

theorem commit_alone (hcommit : P.commit m s a m' s') :
    P.Step (⟨s, fun _ => m⟩ : Config Unit σ Λ) ((), some a) ⟨s', fun _ => m'⟩ := by
  have hstep := Step.commit (P := P) (⟨s, fun _ => m⟩ : Config Unit σ Λ) () a m' s' hcommit
    fun _ hj => absurd rfl hj
  rwa [update_alone] at hstep

end Alone

end Protocol

end Locking
