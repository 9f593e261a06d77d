import CampusQuest.Vocabulary
import Mathlib.Logic.Function.Basic

/-!
The handoff of a bearer between the tabs of one origin. A mint carries the bearer with its expiry
and the time of its last posting; a marker in the storage names the wave of the newest mint. A tab
that needs a bearer first looks at the mints it knows, then asks for the wave of the marker, and
only then sends a refresh of its own.
-/

namespace CampusQuest.Handoff

abbrev Millis := ℤ
abbrev Token := ℕ
abbrev WaveId := ℕ
abbrev Csrf := ℕ

def ADOPTION_TTL_MS : Millis := 10000

def ADOPTION_EXPIRY_MARGIN_MS : Millis := 5000

def MINT_WAIT_MS : Millis := 400

structure AdoptionMessage where
  waveId : WaveId
  token : Token
  contextId : Option Csrf
  sentAt : Millis
  expiresAt : Option Millis
  deriving DecidableEq, Repr

structure HandoffMarker where
  waveId : WaveId
  contextId : Option Csrf
  writtenAt : Millis
  deriving DecidableEq, Repr

/-- `Date.now()` and the observed offset of the server's clock. -/
structure Clock where
  now : Millis
  serverClockOffset : Millis
  deriving DecidableEq, Repr

namespace Clock

variable (clock : Clock)

def bearerUsable : Option Millis → Prop
  | none => True
  | some expiresAt => clock.now + clock.serverClockOffset < expiresAt - ADOPTION_EXPIRY_MARGIN_MS

instance : ∀ expiresAt, Decidable (clock.bearerUsable expiresAt)
  | none => inferInstanceAs (Decidable True)
  | some _ => inferInstanceAs (Decidable (_ < _))

/-- What `tryAdopt` asks of a candidate, under the marker and the CSRF cookie of the moment. -/
structure Adoptable (csrf : Option Csrf) (marker : Option HandoffMarker) (m : AdoptionMessage) :
    Prop where
  fresh : clock.now - m.sentAt < ADOPTION_TTL_MS
  usable : clock.bearerUsable m.expiresAt
  context : m.contextId = csrf
  wave : ∀ h ∈ marker, h.contextId = csrf → h.waveId = m.waveId

theorem adoptable_iff (csrf : Option Csrf) (marker : Option HandoffMarker) (m : AdoptionMessage) :
    clock.Adoptable csrf marker m ↔ clock.now - m.sentAt < ADOPTION_TTL_MS ∧
      clock.bearerUsable m.expiresAt ∧ m.contextId = csrf ∧
      ∀ h ∈ marker, h.contextId = csrf → h.waveId = m.waveId :=
  ⟨fun ⟨h₁, h₂, h₃, h₄⟩ => ⟨h₁, h₂, h₃, h₄⟩, fun ⟨h₁, h₂, h₃, h₄⟩ => ⟨h₁, h₂, h₃, h₄⟩⟩

instance (csrf : Option Csrf) (marker : Option HandoffMarker) (m : AdoptionMessage) :
    Decidable (clock.Adoptable csrf marker m) :=
  decidable_of_iff _ (clock.adoptable_iff csrf marker m).symm

structure Valid (marker : HandoffMarker) (m : AdoptionMessage) : Prop where
  wave : m.waveId = marker.waveId
  posted : marker.writtenAt - 50 ≤ m.sentAt
  context : m.contextId = marker.contextId
  fresh : clock.now - m.sentAt < ADOPTION_TTL_MS
  usable : clock.bearerUsable m.expiresAt

theorem valid_iff (marker : HandoffMarker) (m : AdoptionMessage) :
    clock.Valid marker m ↔ m.waveId = marker.waveId ∧ marker.writtenAt - 50 ≤ m.sentAt ∧
      m.contextId = marker.contextId ∧ clock.now - m.sentAt < ADOPTION_TTL_MS ∧
      clock.bearerUsable m.expiresAt :=
  ⟨fun ⟨h₁, h₂, h₃, h₄, h₅⟩ => ⟨h₁, h₂, h₃, h₄, h₅⟩,
    fun ⟨h₁, h₂, h₃, h₄, h₅⟩ => ⟨h₁, h₂, h₃, h₄, h₅⟩⟩

instance (marker : HandoffMarker) (m : AdoptionMessage) : Decidable (clock.Valid marker m) :=
  decidable_of_iff _ (clock.valid_iff marker m).symm

/-- `answerProbe`: a holder of the wave posts its mint again. Only a mint with an expiry gets a new
time of posting. -/
def answerProbe (waveId : WaveId) (held : Option AdoptionMessage) : Option AdoptionMessage :=
  match held with
  | none => none
  | some m =>
    if m.waveId = waveId ∧ clock.bearerUsable m.expiresAt then
      some { m with sentAt := if m.expiresAt = none then m.sentAt else clock.now }
    else none

theorem answerProbe_eq_some {waveId : WaveId} {held : Option AdoptionMessage} {m : AdoptionMessage}
    (h : clock.answerProbe waveId held = some m) : ∃ m₀, held = some m₀ ∧ m₀.waveId = waveId ∧
      clock.bearerUsable m₀.expiresAt ∧
      m = { m₀ with sentAt := if m₀.expiresAt = none then m₀.sentAt else clock.now } := by
  unfold answerProbe at h
  split at h
  · cases h
  next m₀ =>
    split at h
    next hlive => exact ⟨m₀, rfl, hlive.1, hlive.2, (Option.some.inj h).symm⟩
    next => cases h

end Clock

/-- The mint that a tab holds, and the one that it observed last. -/
structure Slots where
  heldMint : Option AdoptionMessage
  lastAdoption : Option AdoptionMessage
  deriving DecidableEq, Repr

/-- `tryAdopt`: the held mint first, then the one observed last. -/
def Slots.tryAdopt (slots : Slots) (clock : Clock) (csrf : Option Csrf)
    (marker : Option HandoffMarker) : Option AdoptionMessage :=
  (slots.heldMint.filter fun m => clock.Adoptable csrf marker m).or
    (slots.lastAdoption.filter fun m => clock.Adoptable csrf marker m)

/-- What `tryAdopt` answers is one of the two mints, and adoptable. -/
theorem Slots.tryAdopt_eq_some {slots : Slots} {clock : Clock} {csrf : Option Csrf}
    {marker : Option HandoffMarker} {m : AdoptionMessage}
    (h : slots.tryAdopt clock csrf marker = some m) :
    (slots.heldMint = some m ∨ slots.lastAdoption = some m) ∧ clock.Adoptable csrf marker m := by
  unfold Slots.tryAdopt at h
  rcases Option.or_eq_some_iff.mp h with hheld | ⟨_, hlast⟩
  · rw [Option.filter_eq_some_iff] at hheld
    exact ⟨.inl hheld.1, of_decide_eq_true hheld.2⟩
  · rw [Option.filter_eq_some_iff] at hlast
    exact ⟨.inr hlast.1, of_decide_eq_true hlast.2⟩

end CampusQuest.Handoff
