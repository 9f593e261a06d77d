import Mathlib.Logic.Relation

/-!
Labelled transition systems and their runs. A run keeps the list of its steps, so a
property can speak about every state that a run visits or about every step it takes.
The invariant rule proves a property of all reachable states from one step lemma;
the guarded system is the same system with a condition on each step.
-/

namespace Runs

structure System (σ α : Type*) where
  init : σ → Prop
  step : σ → α → σ → Prop

namespace System

variable {σ α : Type*} (S : System σ α)

inductive Reach : σ → Prop
  | init {s : σ} (h : S.init s) : Reach s
  | step {s s' : σ} {a : α} (hs : Reach s) (h : S.step s a s') : Reach s'

/-- A run with its steps in order, each with the state it leaves and the state it enters. -/
inductive Run : σ → List (σ × α × σ) → σ → Prop
  | nil (s : σ) : Run s [] s
  | snoc {s s' s'' : σ} {a : α} {l : List (σ × α × σ)} (hrun : Run s l s')
      (h : S.step s' a s'') : Run s (l ++ [(s', a, s'')]) s''

/-- The same system restricted to the steps that satisfy a condition. -/
def guarded (G : σ → α → Prop) : System σ α where
  init := S.init
  step s a s' := S.step s a s' ∧ G s a

/-- An invariant holds initially and is kept by every step out of a state where it holds. -/
structure Inductive (I : σ → Prop) : Prop where
  init : ∀ s, S.init s → I s
  step : ∀ s a s', I s → S.step s a s' → I s'

variable {S}

theorem Inductive.reach {I : σ → Prop} (h : S.Inductive I) {s : σ} (hs : S.Reach s) : I s := by
  induction hs with
  | init hinit => exact h.init _ hinit
  | step _ hstep ih => exact h.step _ _ _ ih hstep

theorem Inductive.and {I J : σ → Prop} (hI : S.Inductive I) (hJ : S.Inductive J) :
    S.Inductive fun s => I s ∧ J s := by
  constructor
  · intro s hs
    exact ⟨hI.init s hs, hJ.init s hs⟩
  · intro s a s' hs hstep
    exact ⟨hI.step s a s' hs.1 hstep, hJ.step s a s' hs.2 hstep⟩

/-- A step lemma may use any invariant that was proved before. -/
theorem reach_induction {I J : σ → Prop} (hI : S.Inductive I)
    (hinit : ∀ s, S.init s → J s)
    (hstep : ∀ s a s', I s → J s → S.step s a s' → J s')
    {s : σ} (hs : S.Reach s) : J s := by
  have h : S.Inductive fun s => I s ∧ J s := by
    constructor
    · intro s hs
      exact ⟨hI.init s hs, hinit s hs⟩
    · intro s a s' hsI hst
      exact ⟨hI.step s a s' hsI.1 hst, hstep s a s' hsI.1 hsI.2 hst⟩
  exact (h.reach hs).2

theorem Run.reach {s s' : σ} {l : List (σ × α × σ)} (hs : S.Reach s) (h : S.Run s l s') :
    S.Reach s' := by
  induction h with
  | nil => exact hs
  | snoc _ hstep ih => exact Reach.step ih hstep

theorem Run.keeps {P : σ → Prop} {s s' : σ} {l : List (σ × α × σ)}
    (hP : ∀ s a s', S.Reach s → P s → S.step s a s' → P s')
    (hs : S.Reach s) (hrun : S.Run s l s') (h : P s) : P s' := by
  induction hrun with
  | nil => exact h
  | snoc hrun hstep ih => exact hP _ _ _ (hrun.reach hs) ih hstep

theorem Run.step_mem {s s' : σ} {l : List (σ × α × σ)} (h : S.Run s l s')
    {t t' : σ} {a : α} (hmem : (t, a, t') ∈ l) :
    S.step t a t' ∧ ∃ l', S.Run s l' t := by
  induction h with
  | nil => simp at hmem
  | snoc hrun hstep ih =>
    rcases List.mem_append.mp hmem with hold | hnew
    · exact ih hold
    · simp only [List.mem_singleton, Prod.mk.injEq] at hnew
      obtain ⟨rfl, rfl, rfl⟩ := hnew
      exact ⟨hstep, _, hrun⟩

theorem Reach.of_guarded {G : σ → α → Prop} {s : σ} (h : (S.guarded G).Reach s) : S.Reach s := by
  induction h with
  | init hinit => exact Reach.init hinit
  | step _ hstep ih => exact Reach.step ih hstep.1

/-- A property of every visited state holds in the last one. -/
theorem Run.last {P : σ → Prop} {s s' : σ} {l : List (σ × α × σ)} (hrun : S.Run s l s')
    (h : P s) (hall : ∀ e ∈ l, P e.2.2) : P s' := by
  cases hrun with
  | nil => exact h
  | snoc hrun hstep => exact hall (_, _, s') (List.mem_append_right _ (List.mem_singleton_self _))

/-- An event that happens only while a property fails, and that makes it hold for ever,
happens at most once in a run. -/
theorem Run.at_most_once {Q : σ → Prop} {Y : σ × α × σ → Prop}
    (hkeep : ∀ s a s', S.Reach s → S.step s a s' → Q s → Q s')
    (hevent : ∀ s a s', S.Reach s → S.step s a s' → Y (s, a, s') → ¬ Q s ∧ Q s')
    {s s' : σ} {l : List (σ × α × σ)} (hs : S.Reach s) (hrun : S.Run s l s') :
    (l.Pairwise fun e e' => ¬ (Y e ∧ Y e')) ∧ ((∃ e ∈ l, Y e) → Q s') := by
  induction hrun with
  | nil => exact ⟨.nil, by simp⟩
  | @snoc s₁ s₂ a l hrun hstep ih =>
    obtain ⟨hpairwise, hbefore⟩ := ih
    have hreach := hrun.reach hs
    refine ⟨List.pairwise_append.mpr ⟨hpairwise, List.pairwise_singleton _ _, ?_⟩, ?_⟩
    · rintro e he e' he' ⟨hY, hY'⟩
      rw [List.mem_singleton] at he'
      subst he'
      exact (hevent s₁ a s₂ hreach hstep hY').1 (hbefore ⟨e, he, hY⟩)
    · rintro ⟨e, he, hY⟩
      rcases List.mem_append.mp he with hold | hnew
      · exact hkeep s₁ a s₂ hreach hstep (hbefore ⟨e, hold, hY⟩)
      · rw [List.mem_singleton] at hnew
        subst hnew
        exact (hevent s₁ a s₂ hreach hstep hY).2

/-- If a step keeps a property exactly when it meets a condition, then a run keeps the
property in every state it visits exactly when all its steps meet the condition. -/
theorem Run.keeps_iff {P : σ → Prop} {G : σ → α → Prop} {s s' : σ} {l : List (σ × α × σ)}
    (hP : ∀ s a s', S.Reach s → P s → S.step s a s' → (P s' ↔ G s a))
    (hs : S.Reach s) (h : P s) (hrun : S.Run s l s') :
    (∀ e ∈ l, P e.2.2) ↔ ∀ e ∈ l, G e.1 e.2.1 := by
  induction hrun with
  | nil => simp
  | snoc hrun hstep ih =>
    simp only [List.mem_append, List.mem_singleton, or_imp, forall_and, forall_eq]
    constructor
    · rintro ⟨hall, hlast⟩
      exact ⟨ih.mp hall, (hP _ _ _ (hrun.reach hs) (hrun.last h hall) hstep).mp hlast⟩
    · rintro ⟨hall, hlast⟩
      have hall := ih.mpr hall
      exact ⟨hall, (hP _ _ _ (hrun.reach hs) (hrun.last h hall) hstep).mpr hlast⟩

section Functional

def ofFun (init : σ → Prop) (f : σ → α → σ) : System σ α where
  init := init
  step s a s' := s' = f s a

def traceOf (f : σ → α → σ) (s : σ) : List α → List (σ × α × σ)
  | [] => []
  | a :: as => (s, a, f s a) :: traceOf f (f s a) as

theorem Run.cons {s s' s'' : σ} {a : α} {l : List (σ × α × σ)} (hstep : S.step s a s')
    (hrun : S.Run s' l s'') : S.Run s ((s, a, s') :: l) s'' := by
  induction hrun with
  | nil => exact .snoc (.nil s) hstep
  | snoc _ hlast ih => exact .snoc ih hlast

theorem run_traceOf (init : σ → Prop) (f : σ → α → σ) (s : σ) (as : List α) :
    (ofFun init f).Run s (traceOf f s as) (as.foldl f s) := by
  induction as generalizing s with
  | nil => exact .nil s
  | cons a as ih =>
    have hstep : (ofFun init f).step s a (f s a) := rfl
    exact Run.cons hstep (ih (f s a))

theorem mem_traceOf {f : σ → α → σ} {s : σ} {as : List α} {e : σ × α × σ}
    (h : e ∈ traceOf f s as) : e.2.1 ∈ as := by
  induction as generalizing s with
  | nil => cases h
  | cons a as ih =>
    rcases List.mem_cons.mp h with rfl | htail
    · exact List.mem_cons_self
    · exact List.mem_cons_of_mem a (ih htail)

/-- Labels that each meet a condition stay in the guarded system. -/
theorem guarded_foldl {init : σ → Prop} {f : σ → α → σ} {G : σ → α → Prop} {s : σ}
    (hs : ((ofFun init f).guarded G).Reach s) (as : List α)
    (h : ∀ e ∈ traceOf f s as, G e.1 e.2.1) :
    ((ofFun init f).guarded G).Reach (as.foldl f s) := by
  induction as generalizing s with
  | nil => exact hs
  | cons a as ih =>
    have hfirst : G s a := h (s, a, f s a) List.mem_cons_self
    exact ih (.step hs ⟨rfl, hfirst⟩) fun e he => h e (List.mem_cons_of_mem _ he)

end Functional

section Refinement

variable {τ β : Type*} {T : System τ β} {f : σ → τ}

/-- A mapping of states under which every step of one system is a step of another one or
leaves the image unchanged. -/
structure Refines (S : System σ α) (T : System τ β) (f : σ → τ) : Prop where
  init : ∀ s, S.init s → T.init (f s)
  step : ∀ s a s', S.Reach s → T.Reach (f s) → S.step s a s' →
    f s' = f s ∨ ∃ b, T.step (f s) b (f s')

theorem Refines.reach (h : Refines S T f) {s : σ} (hs : S.Reach s) : T.Reach (f s) := by
  induction hs with
  | init hinit => exact Reach.init (h.init _ hinit)
  | step hs hstep ih =>
    rcases h.step _ _ _ hs ih hstep with hsame | ⟨b, hb⟩
    · rw [hsame]
      exact ih
    · exact Reach.step ih hb

/-- What each step of the refined system keeps is kept by every run. -/
theorem Refines.keeps (h : Refines S T f) {P : τ → Prop}
    (hP : ∀ t b t', T.Reach t → P t → T.step t b t' → P t') {s s' : σ}
    {l : List (σ × α × σ)} (hs : S.Reach s) (hrun : S.Run s l s') (hPs : P (f s)) : P (f s') := by
  refine hrun.keeps (P := fun s => P (f s)) (fun u a u' hu hPu hstep => ?_) hs hPs
  rcases h.step u a u' hu (h.reach hu) hstep with hsame | ⟨b, hb⟩
  · rw [hsame]
    exact hPu
  · exact hP _ b _ (h.reach hu) hPu hb

/-- An invariant of the refined system holds of the image of every reachable state. -/
theorem Refines.invariant (h : Refines S T f) {I : τ → Prop} (hI : T.Inductive I) {s : σ}
    (hs : S.Reach s) : I (f s) :=
  hI.reach (h.reach hs)

end Refinement

end System

end Runs
