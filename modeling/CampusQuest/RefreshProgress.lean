import CampusQuest.Handoff

/-!
What a refresh brings. A rotation adopts the first mint that is on offer, in the order of the held
mint, the one observed last and the answers to its probe, and asks the server only when there is
none. Nothing compares a mint with the token that the server has just refused.
-/

namespace CampusQuest.Handoff

structure RotationInput where
  clock : Clock
  csrf : Option Csrf
  marker : Option HandoffMarker
  /-- There is a `BroadcastChannel`. -/
  channel : Bool
  publishedWave : Option WaveId
  /-- The mints that arrive while the probe waits, each with the clock of its arrival. -/
  heard : List (Clock × AdoptionMessage)
  /-- A transition is active or the context is another one, at the entry or behind the probe. -/
  fencedAtEntry : Bool
  fencedAfterProbe : Bool
  /-- The token of a refresh that succeeds in the context of the rotation. -/
  response : Option Token

inductive WaveOutcome
  | mint (message : AdoptionMessage)
  | dead
  | noChannel
  deriving DecidableEq, Repr

namespace RotationInput

variable (i : RotationInput) (slots : Slots)

/-- `resolveWave`: the mint observed last, then the first valid one that arrives. -/
def resolveWave (marker : HandoffMarker) : WaveOutcome :=
  match slots.lastAdoption.filter fun m => i.clock.Valid marker m with
  | some m => .mint m
  | none =>
    if i.channel = false then
      if i.publishedWave = some marker.waveId then .dead else .noChannel
    else match i.heard.find? fun p => p.1.Valid marker p.2 with
      | some (_, m) => .mint m
      | none => .dead

def wave : Option HandoffMarker := i.marker.filter fun marker => marker.contextId = i.csrf

/-- `adoptOrRotate`: the token that the tab then holds, if it resolves true. -/
def adoptOrRotate : Option Token :=
  if i.fencedAtEntry = true then none
  else match slots.tryAdopt i.clock i.csrf i.marker with
    | some m => some m.token
    | none =>
      match i.wave with
      | none => i.response
      | some marker =>
        match i.resolveWave slots marker with
        | .mint m => if i.fencedAfterProbe = true then none else some m.token
        | .noChannel => none
        | .dead => i.response

/-- The mints that the probe for a wave may answer with, in their order. -/
def answers (marker : HandoffMarker) : List AdoptionMessage :=
  (slots.lastAdoption.filter fun m => i.clock.Valid marker m).toList ++
    if i.channel = false then []
    else (i.heard.filter fun p => p.1.Valid marker p.2).map Prod.snd

def offers : List AdoptionMessage :=
  (slots.tryAdopt i.clock i.csrf i.marker).toList ++ i.wave.elim [] (i.answers slots)

variable {i slots}

theorem answers_of_mint {marker : HandoffMarker} {m : AdoptionMessage}
    (h : i.resolveWave slots marker = .mint m) : (i.answers slots marker).head? = some m := by
  unfold resolveWave at h
  unfold answers
  cases hlast : slots.lastAdoption.filter fun m => i.clock.Valid marker m with
  | some m₀ =>
    rw [hlast] at h
    obtain rfl := WaveOutcome.mint.inj h
    rfl
  | none =>
    rw [hlast] at h
    dsimp only at h
    split at h
    · split at h
      · cases h
      · cases h
    next hchannel =>
      rw [if_neg hchannel]
      split at h
      next p m₀ hfind =>
        obtain rfl := WaveOutcome.mint.inj h
        rw [Option.toList_none, List.nil_append, List.head?_map, List.head?_filter, hfind]
        rfl
      next => cases h

theorem answers_of_dead {marker : HandoffMarker} (h : i.resolveWave slots marker = .dead) :
    i.answers slots marker = [] := by
  unfold resolveWave at h
  unfold answers
  cases hlast : slots.lastAdoption.filter fun m => i.clock.Valid marker m with
  | some m₀ =>
    rw [hlast] at h
    cases h
  | none =>
    rw [hlast] at h
    dsimp only at h
    split at h
    next hchannel =>
      rw [if_pos hchannel]
      rfl
    next hchannel =>
      rw [if_neg hchannel]
      split at h
      next => cases h
      next hfind =>
        rw [List.find?_eq_none] at hfind
        rw [List.filter_eq_nil_iff.mpr hfind]
        rfl

/-- A rotation that resolves true brings the first mint on offer, or what the server answers. -/
theorem adoptOrRotate_eq_some {t : Token} (h : i.adoptOrRotate slots = some t) :
    (∃ m, (i.offers slots).head? = some m ∧ m.token = t) ∨
      i.offers slots = [] ∧ i.response = some t := by
  unfold adoptOrRotate at h
  unfold offers
  split at h
  · cases h
  cases hadopt : slots.tryAdopt i.clock i.csrf i.marker with
  | some m =>
    rw [hadopt] at h
    exact .inl ⟨m, rfl, Option.some.inj h⟩
  | none =>
    rw [hadopt] at h
    cases hwave : i.wave with
    | none =>
      rw [hwave] at h
      exact .inr ⟨rfl, h⟩
    | some marker =>
      rw [hwave] at h
      dsimp only at h
      change (∃ m, (i.answers slots marker).head? = some m ∧ m.token = t) ∨
        i.answers slots marker = [] ∧ _
      split at h
      next m hmint =>
        split at h
        · cases h
        · exact .inl ⟨m, answers_of_mint hmint, Option.some.inj h⟩
      next => cases h
      next hdead => exact .inr ⟨answers_of_dead hdead, h⟩

end RotationInput

/-- A refresh that resolves true gives the tab another token than the refused one exactly when the
first mint on offer is of another token, and without an offer the server issues another one. -/
theorem refresh_progress {i : RotationInput} {slots : Slots} {refused held : Token}
    (h : i.adoptOrRotate slots = some held) :
    held ≠ refused ↔ (∀ m ∈ (i.offers slots).head?, m.token ≠ refused) ∧
      (i.offers slots = [] → i.response ≠ some refused) := by
  rcases RotationInput.adoptOrRotate_eq_some h with ⟨m, hhead, rfl⟩ | ⟨hnone, hresponse⟩
  · rw [hhead]
    constructor
    · refine fun hne => ⟨fun m' hm' => ?_, fun hnil => ?_⟩
      · obtain rfl := Option.some.inj hm'
        exact hne
      · rw [hnil] at hhead
        cases hhead
    · exact fun h => h.1 m rfl
  · rw [hnone, hresponse]
    constructor
    · exact fun hne => ⟨fun m hm => (by cases hm), fun _ heq => hne (Option.some.inj heq)⟩
    · exact fun h heq => h.2 rfl (congrArg some heq)

section Example

/-- A mint of a second ago, whose bearer lives for ten more minutes. -/
def revokedMint : AdoptionMessage := ⟨1, 7, some 3, 1000, some 600000⟩

def secondRefresh (response : Option Token) : RotationInput where
  clock := ⟨2000, 0⟩
  csrf := some 3
  marker := some ⟨1, some 3, 1000⟩
  channel := true
  publishedWave := some 1
  heard := []
  fencedAtEntry := false
  fencedAfterProbe := false
  response := response

end Example

/-- The server has revoked the bearer, and the refresh brings it again. -/
theorem revoked_bearer_adopted :
    ¬ ∀ (i : RotationInput) (slots : Slots) (refused held : Token),
      slots.heldMint.map AdoptionMessage.token = some refused →
      i.adoptOrRotate slots = some held → held ≠ refused := by
  intro hall
  exact hall (secondRefresh (some 8)) ⟨some revokedMint, some revokedMint⟩ 7 7 rfl (by decide) rfl

/-- Without the mint the server issues a new one. -/
theorem rotation_progress :
    ∃ held, (secondRefresh (some 8)).adoptOrRotate ⟨none, none⟩ = some held ∧ held ≠ 7 := by
  have h : (secondRefresh (some 8)).adoptOrRotate ⟨none, none⟩ = some 8 := by decide
  exact ⟨8, h, (refresh_progress h).mpr ⟨by decide, fun _ => by decide⟩⟩

end CampusQuest.Handoff
