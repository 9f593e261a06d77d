import CampusQuest.Histories
import CampusQuest.Vocabulary
import Mathlib.Algebra.Order.Field.Rat

/-!
The flow of an upload in the browser, as its reducer computes it. The panel dispatches what the
user does and what its requests come to. A run that was left behind by a reset or by another file
still reports, and most of its reports are taken at any phase.
-/

namespace CampusQuest.UploadFlow

open Histories

inductive UploadPhase
  | idle
  | preparing
  | uploading
  | finalizing
  | retryFinalize
  | validating
  | pollExhausted
  | underReview
  | validationFailed
  | prepareFailed
  | uploadFailed
  deriving DecidableEq, Repr

inductive FileTypeKey
  | csv
  | xlsx
  | sqlite
  | docx
  | pdf
  deriving DecidableEq, Repr

/-- A sample of the validation: its status, and the rest, which no transition reads. -/
structure ValidationDto (ρ : Type) where
  validationStatus : Text
  rest : ρ
  deriving DecidableEq

inductive Stage
  | prepare
  | upload
  deriving DecidableEq, Repr

/-- The submissions, the reports and the errors are passed on unread. Ratios are exact. -/
structure UploadFlowState (σ ρ ε : Type) where
  phase : UploadPhase
  filename : Option Text
  fileSize : Option ℕ
  declaredType : Option FileTypeKey
  intentId : Option Text
  progress : Option ℚ
  submission : Option σ
  validation : Option (ValidationDto ρ)
  pollAttempt : ℕ
  error : Option ε
  deriving DecidableEq

inductive UploadFlowEvent (σ ρ ε : Type)
  | fileSelected (filename : Text) (fileSize : ℕ) (declaredType : FileTypeKey)
  | prepareStarted
  | intentIssued (intentId : Text)
  | progress (loaded : ℕ) (total : Option ℕ)
  | putSucceeded
  | finalizeSucceeded (submission : σ)
  | finalizeFailed (error : ε)
  | retryFinalizeStarted
  | retryUploadStarted
  | pollSampled (validation : ValidationDto ρ)
  | pollExhausted
  | failed (stage : Stage) (error : ε)
  | reset

section Reducer

variable {σ ρ ε : Type}

def initialUploadFlowState : UploadFlowState σ ρ ε :=
  ⟨.idle, none, none, none, none, none, none, none, 0, none⟩

def ratio (loaded : ℕ) (total : Option ℕ) : Option ℚ :=
  match total with
  | some total => if 0 < total then some (min ((loaded : ℚ) / total) 1) else none
  | none => none

def uploadFlowReducer (state : UploadFlowState σ ρ ε) :
    UploadFlowEvent σ ρ ε → UploadFlowState σ ρ ε
  | .fileSelected filename fileSize declaredType =>
    { initialUploadFlowState with
      filename := some filename, fileSize := some fileSize, declaredType := some declaredType }
  | .prepareStarted => { state with phase := .preparing, error := none, progress := none }
  | .intentIssued intentId =>
    { state with phase := .uploading, intentId := some intentId, progress := none }
  | .progress loaded total =>
    if state.phase ≠ .uploading then state else { state with progress := ratio loaded total }
  | .putSucceeded => { state with phase := .finalizing, progress := some 1 }
  | .finalizeSucceeded submission =>
    { state with
      phase := .validating, submission := some submission, validation := none, pollAttempt := 0,
      error := none }
  | .finalizeFailed error => { state with phase := .retryFinalize, error := some error }
  | .retryFinalizeStarted => { state with phase := .finalizing, error := none }
  | .retryUploadStarted =>
    { state with phase := .preparing, intentId := none, progress := none, error := none }
  | .pollSampled validation =>
    if state.phase ≠ .validating then state
    else if validation.validationStatus = "VALIDATED".toList then
      { state with phase := .underReview, validation := some validation }
    else if validation.validationStatus = "VALIDATION_FAILED".toList then
      { state with phase := .validationFailed, validation := some validation }
    else { state with validation := some validation, pollAttempt := state.pollAttempt + 1 }
  | .pollExhausted => if state.phase = .validating then { state with phase := .pollExhausted } else state
  | .failed stage error =>
    { state with
      phase := match stage with
        | .prepare => .prepareFailed
        | .upload => .uploadFailed
      error := some error }
  | .reset => initialUploadFlowState

def flow (events : List (UploadFlowEvent σ ρ ε)) : UploadFlowState σ ρ ε :=
  events.foldl uploadFlowReducer initialUploadFlowState

theorem flow_concat (events : List (UploadFlowEvent σ ρ ε)) (event : UploadFlowEvent σ ρ ε) :
    flow (events ++ [event]) = uploadFlowReducer (flow events) event := List.foldl_concat ..

end Reducer

/-! ### What the flow is asked for -/

namespace UploadFlowEvent

variable {σ ρ ε : Type}

def Abandons : UploadFlowEvent σ ρ ε → Prop
  | .fileSelected .. | .reset => True
  | _ => False

def Begins : UploadFlowEvent σ ρ ε → Prop
  | .prepareStarted => True
  | _ => False

def Reports : UploadFlowEvent σ ρ ε → Prop
  | .intentIssued _ | .progress .. | .putSucceeded | .finalizeSucceeded _ | .finalizeFailed _
  | .pollSampled _ | .pollExhausted | .failed .. => True
  | _ => False

def Unguarded : UploadFlowEvent σ ρ ε → Prop
  | .intentIssued _ | .putSucceeded | .finalizeSucceeded _ | .finalizeFailed _ | .failed .. => True
  | _ => False

def Issues : UploadFlowEvent σ ρ ε → Prop
  | .intentIssued _ => True
  | _ => False

def Drops : UploadFlowEvent σ ρ ε → Prop
  | .fileSelected .. | .reset | .retryUploadStarted => True
  | _ => False

def NeedsIntent : UploadFlowEvent σ ρ ε → Prop
  | .putSucceeded | .finalizeFailed _ | .retryFinalizeStarted => True
  | _ => False

end UploadFlowEvent

section Demands

variable {σ ρ ε : Type}

/-- The last run was left, and none has begun since. -/
def Abandoned (events : List (UploadFlowEvent σ ρ ε)) : Prop :=
  Since UploadFlowEvent.Abandons UploadFlowEvent.Begins events

def Issued (events : List (UploadFlowEvent σ ρ ε)) : Prop :=
  Since UploadFlowEvent.Issues UploadFlowEvent.Drops events

structure Carries (state : UploadFlowState σ ρ ε) : Prop where
  intent : state.phase = .finalizing ∨ state.phase = .retryFinalize → state.intentId ≠ none
  submission : state.phase = .validating ∨ state.phase = .pollExhausted ∨
    state.phase = .underReview ∨ state.phase = .validationFailed → state.submission ≠ none

/-- No report of an abandoned run changes the state, and every state carries what its phase
needs. -/
def NeverResurrects (events : List (UploadFlowEvent σ ρ ε)) : Prop :=
  Throughout (fun before event => (Abandoned before → event.Reports →
      uploadFlowReducer (flow before) event = flow before) ∧
    Carries (uploadFlowReducer (flow before) event)) events

/-- No unguarded report comes behind the end of its run, and none that needs an intent comes
without one. -/
def Orderly (events : List (UploadFlowEvent σ ρ ε)) : Prop :=
  Throughout (fun before event => (Abandoned before → ¬ event.Unguarded) ∧
    (event.NeedsIntent → Issued before)) events

end Demands

section Facts

variable {σ ρ ε : Type} {events : List (UploadFlowEvent σ ρ ε)} {event : UploadFlowEvent σ ρ ε}
  {state : UploadFlowState σ ρ ε}

/-- Nothing but the phase, the progress and the samples changes with a guarded report, and only in
the phase that it is about. -/
inductive Guarded (state : UploadFlowState σ ρ ε) : UploadFlowState σ ρ ε → Prop
  | kept : Guarded state state
  | moved (progress : Option ℚ) (h : state.phase = .uploading) :
      Guarded state { state with progress := progress }
  | sampled (validation : ValidationDto ρ) (pollAttempt : ℕ) (h : state.phase = .validating) :
      Guarded state { state with validation := some validation, pollAttempt := pollAttempt }
  | decided (phase : UploadPhase) (validation : Option (ValidationDto ρ))
      (h : state.phase = .validating) (hphase : phase = .underReview ∨ phase = .validationFailed ∨
        phase = .pollExhausted) :
      Guarded state { state with phase := phase, validation := validation }

theorem guarded_progress {loaded : ℕ} {total : Option ℕ} :
    Guarded state (uploadFlowReducer state (.progress loaded total)) := by
  rw [show uploadFlowReducer state (.progress loaded total) = if state.phase ≠ .uploading then state
    else { state with progress := ratio loaded total } from rfl]
  split
  next => exact .kept
  next h => exact .moved _ (not_not.mp h)

theorem guarded_pollSampled {validation : ValidationDto ρ} :
    Guarded state (uploadFlowReducer state (.pollSampled validation)) := by
  rw [show uploadFlowReducer state (.pollSampled validation) =
    if state.phase ≠ .validating then state
    else if validation.validationStatus = "VALIDATED".toList then
      { state with phase := .underReview, validation := some validation }
    else if validation.validationStatus = "VALIDATION_FAILED".toList then
      { state with phase := .validationFailed, validation := some validation }
    else { state with validation := some validation, pollAttempt := state.pollAttempt + 1 } from rfl]
  split
  next => exact .kept
  next h =>
    have hvalidating := not_not.mp h
    split_ifs
    · exact .decided _ _ hvalidating (Or.inl rfl)
    · exact .decided _ _ hvalidating (Or.inr (Or.inl rfl))
    · exact .sampled _ _ hvalidating

theorem guarded_pollExhausted :
    Guarded state (uploadFlowReducer state .pollExhausted) := by
  rw [show uploadFlowReducer state .pollExhausted =
    if state.phase = .validating then { state with phase := .pollExhausted } else state from rfl]
  split
  next h => exact .decided _ state.validation h (Or.inr (Or.inr rfl))
  next => exact .kept

theorem Guarded.intentId {state' : UploadFlowState σ ρ ε} (h : Guarded state state') :
    state'.intentId = state.intentId := by
  cases h <;> rfl

/-- At rest a guarded report changes nothing. -/
theorem Guarded.at_rest {state' : UploadFlowState σ ρ ε} (h : Guarded state state')
    (hphase : state.phase = .idle ∨ state.phase = .preparing) : state' = state := by
  cases h with
  | kept => rfl
  | moved _ h | sampled _ _ h | decided _ _ h =>
    rw [h] at hphase
    rcases hphase with hphase | hphase <;> cases hphase

theorem Guarded.carries {state' : UploadFlowState σ ρ ε} (h : Guarded state state')
    (hcarries : Carries state) : Carries state' := by
  cases h with
  | kept => exact hcarries
  | moved | sampled => exact ⟨hcarries.intent, hcarries.submission⟩
  | decided phase validation h hphase =>
    refine ⟨fun hneeds => ?_, fun _ => hcarries.submission (Or.inl h)⟩
    dsimp only at hneeds
    rcases hphase with rfl | rfl | rfl <;> rcases hneeds with hneeds | hneeds <;> cases hneeds

/-- The flow has an intent exactly when one was issued and not dropped. -/
theorem intentId_iff : (flow events).intentId ≠ none ↔ Issued events := by
  induction events using List.reverseRecOn with
  | nil => exact iff_of_false (fun h => h rfl) not_since_nil
  | append_singleton events event ih =>
    have hkept : (flow events).intentId ≠ none ↔
        False ∨ Since UploadFlowEvent.Issues UploadFlowEvent.Drops events ∧ ¬ False := by
      rw [ih, Issued, false_or, not_false_eq_true, and_true]
    unfold Issued
    rw [flow_concat, since_concat]
    cases event with
    | progress loaded total => rwa [guarded_progress.intentId]
    | pollSampled validation => rwa [guarded_pollSampled.intentId]
    | pollExhausted => rwa [guarded_pollExhausted.intentId]
    | intentIssued intentId => exact iff_of_true (Option.some_ne_none intentId) (Or.inl trivial)
    | fileSelected | reset | retryUploadStarted =>
      refine iff_of_false (fun h => h rfl) ?_
      rintro (h | ⟨_, h⟩)
      · exact h
      · exact h trivial
    | _ => exact hkept

/-- What a phase needs is there, if the intent was there for the events that need one. -/
theorem carries_step_iff (h : Carries state) :
    Carries (uploadFlowReducer state event) ↔ (event.NeedsIntent → state.intentId ≠ none) := by
  cases event with
  | progress loaded total => exact iff_of_true (guarded_progress.carries h) (fun h => h.elim)
  | pollSampled validation => exact iff_of_true (guarded_pollSampled.carries h) (fun h => h.elim)
  | pollExhausted => exact iff_of_true (guarded_pollExhausted.carries h) (fun h => h.elim)
  | putSucceeded | retryFinalizeStarted =>
    constructor
    · exact fun hafter _ => hafter.intent (Or.inl rfl)
    · intro hintent
      refine ⟨fun _ => hintent trivial, fun hphase => ?_⟩
      rcases hphase with hphase | hphase | hphase | hphase <;> cases hphase
  | finalizeFailed error =>
    constructor
    · exact fun hafter _ => hafter.intent (Or.inr rfl)
    · intro hintent
      refine ⟨fun _ => hintent trivial, fun hphase => ?_⟩
      rcases hphase with hphase | hphase | hphase | hphase <;> cases hphase
  | finalizeSucceeded submission =>
    refine iff_of_true ⟨fun hphase => ?_, fun _ => Option.some_ne_none submission⟩
      (fun h => h.elim)
    rcases hphase with hphase | hphase <;> cases hphase
  | failed stage error =>
    refine iff_of_true ⟨fun hphase => ?_, fun hphase => ?_⟩ (fun h => h.elim)
    · cases stage <;> rcases hphase with hphase | hphase <;> cases hphase
    · cases stage <;> rcases hphase with hphase | hphase | hphase | hphase <;> cases hphase
  | _ =>
    refine iff_of_true ⟨fun hphase => ?_, fun hphase => ?_⟩ (fun h => h.elim)
    · rcases hphase with hphase | hphase <;> cases hphase
    · rcases hphase with hphase | hphase | hphase | hphase <;> cases hphase

/-- Behind the end of a run an orderly flow rests. -/
theorem rests (horderly : Orderly events) (habandoned : Abandoned events) :
    ((flow events).phase = .idle ∨ (flow events).phase = .preparing) ∧
      (flow events).intentId = none := by
  induction events using List.reverseRecOn with
  | nil => exact (not_since_nil habandoned).elim
  | append_singleton events event ih =>
    obtain ⟨hbefore, hquiet, hneeds⟩ := throughout_concat.mp horderly
    rw [flow_concat]
    rcases since_concat.mp habandoned with hends | ⟨hstill, hbegins⟩
    · cases event with
      | fileSelected | reset => exact ⟨Or.inl rfl, rfl⟩
      | _ => exact hends.elim
    · obtain ⟨hphase, hintent⟩ := ih hbefore hstill
      cases event with
      | fileSelected | reset => exact ⟨Or.inl rfl, rfl⟩
      | prepareStarted => exact (hbegins trivial).elim
      | intentIssued | putSucceeded | finalizeSucceeded | finalizeFailed | failed =>
        exact (hquiet hstill trivial).elim
      | retryFinalizeStarted => exact (intentId_iff.mpr (hneeds trivial) hintent).elim
      | retryUploadStarted => exact ⟨Or.inr rfl, rfl⟩
      | progress =>
        rw [guarded_progress.at_rest hphase]
        exact ⟨hphase, hintent⟩
      | pollSampled =>
        rw [guarded_pollSampled.at_rest hphase]
        exact ⟨hphase, hintent⟩
      | pollExhausted =>
        rw [guarded_pollExhausted.at_rest hphase]
        exact ⟨hphase, hintent⟩

/-- At rest the guarded reports change nothing, and every other one does. -/
theorem report_kept_iff (hphase : state.phase = .idle ∨ state.phase = .preparing)
    (hreports : event.Reports) :
    uploadFlowReducer state event = state ↔ ¬ event.Unguarded := by
  cases event with
  | progress => exact iff_of_true (guarded_progress.at_rest hphase) (fun h => h.elim)
  | pollSampled => exact iff_of_true (guarded_pollSampled.at_rest hphase) (fun h => h.elim)
  | pollExhausted => exact iff_of_true (guarded_pollExhausted.at_rest hphase) (fun h => h.elim)
  | intentIssued | putSucceeded | finalizeSucceeded | finalizeFailed =>
    refine iff_of_false (fun h => ?_) (fun h => h trivial)
    have hmoved := congrArg UploadFlowState.phase h
    rcases hphase with hphase | hphase <;> rw [hphase] at hmoved <;> cases hmoved
  | failed stage error =>
    refine iff_of_false (fun h => ?_) (fun h => h trivial)
    have hmoved := congrArg UploadFlowState.phase h
    rcases hphase with hphase | hphase <;> rw [hphase] at hmoved <;> cases stage <;> cases hmoved
  | _ => exact hreports.elim

theorem carries_initial : Carries (initialUploadFlowState : UploadFlowState σ ρ ε) := by
  constructor <;> simp [initialUploadFlowState]

theorem Orderly.carries (h : Orderly events) : Carries (flow events) := by
  induction events using List.reverseRecOn with
  | nil => exact carries_initial
  | append_singleton events event ih =>
    obtain ⟨hbefore, _, hneeds⟩ := throughout_concat.mp h
    have hcarries := ih hbefore
    rw [flow_concat]
    exact (carries_step_iff hcarries).mpr fun hneed => intentId_iff.mpr (hneeds hneed)

theorem unguarded_reports (h : event.Unguarded) : event.Reports := by
  cases event with
  | intentIssued | putSucceeded | finalizeSucceeded | finalizeFailed | failed => trivial
  | _ => exact h.elim

end Facts

/-- The flow never resurrects exactly along the orderly events. -/
theorem never_resurrects_iff {σ ρ ε : Type} (events : List (UploadFlowEvent σ ρ ε)) :
    NeverResurrects events ↔ Orderly events := by
  refine throughout_congr fun before event horderly => ?_
  have hcarries := Orderly.carries horderly
  refine and_congr ?_ ?_
  · refine forall_congr' fun habandoned => ?_
    obtain ⟨hphase, _⟩ := rests horderly habandoned
    constructor
    · intro hkept hunguarded
      have hreports := unguarded_reports hunguarded
      exact (report_kept_iff hphase hreports).mp (hkept hreports) hunguarded
    · exact fun hguarded hreports => (report_kept_iff hphase hreports).mpr hguarded
  · rw [← intentId_iff]
    exact carries_step_iff hcarries

/-- The intent of a run comes behind the reset, and the flow uploads again. -/
theorem late_intent_resurrects :
    ¬ NeverResurrects ([.prepareStarted, .reset, .intentIssued "i".toList] :
      List (UploadFlowEvent Unit Unit Unit)) := by
  intro h
  have hkept := (h [.prepareStarted, .reset] _ [] rfl).1
    ⟨[.prepareStarted], .reset, [], rfl, trivial, fun _ h => (by cases h)⟩ trivial
  have hmoved := congrArg UploadFlowState.phase hkept
  cases hmoved

end CampusQuest.UploadFlow
