import CampusQuest.Handoff
import CampusQuest.Runs

/-!
One refresh wave over the tabs of an origin. The lock lets one rotation at a time behind its entry;
a rotation that finds no mint of its own asks the tabs for the wave of the marker, and one that
finds none sends a refresh. Every refresh succeeds here, nothing logs in or out, and no rotation
gives the lock up. A tab that is not open yet is one that has not acted.
-/

namespace CampusQuest.RefreshWave

open Handoff (Millis Token WaveId Csrf AdoptionMessage HandoffMarker Clock Slots ADOPTION_TTL_MS
  MINT_WAIT_MS)
open Runs

abbrev TabId := ℕ

/-- How far the pending rotation of a tab is; `heard` are the tabs whose answers came and were not
valid. -/
inductive Phase
  | idle
  | waiting
  | probing (marker : HandoffMarker) (since : Millis) (heard : List TabId)
  | posted
  | stored (contextId : Option Csrf)
  | grace
  deriving DecidableEq, Repr

structure Tab where
  accessToken : Option Token
  slots : Slots
  phase : Phase
  serverClockOffset : Millis

structure Origin where
  now : Millis
  tabs : TabId → Tab
  lock : Option TabId
  marker : Option HandoffMarker
  csrf : Option Csrf
  /-- The mints on the channel: each of them may reach each tab, late and again. -/
  channel : List AdoptionMessage
  /-- The refreshes that were sent, and the token of the last one. -/
  posts : ℕ
  issued : Option Token

namespace Origin

variable (o : Origin) (t : TabId)

def clock : Clock := ⟨o.now, (o.tabs t).serverClockOffset⟩

def setTab (tab : Tab) : Origin := { o with tabs := Function.update o.tabs t tab }

def setPhase (phase : Phase) : Origin := o.setTab t { o.tabs t with phase := phase }

/-- `accessToken = adopted.token; heldMint = adopted`, and the lock is free again. -/
def adopt (m : AdoptionMessage) : Origin :=
  { o.setTab t { o.tabs t with
      accessToken := some m.token
      slots := { (o.tabs t).slots with heldMint := some m }
      phase := .idle } with lock := none }

def hear (m : AdoptionMessage) : Origin :=
  o.setTab t { o.tabs t with slots := { (o.tabs t).slots with lastAdoption := some m } }

def post (m : AdoptionMessage) : Origin := { o with channel := m :: o.channel }

def lead : Origin :=
  { o.setPhase t .posted with lock := some t, marker := none, posts := o.posts + 1 }

def respond (token : Token) (csrfToken : Option Csrf) : Origin :=
  { o.setTab t { o.tabs t with accessToken := some token, phase := .stored csrfToken } with
    csrf := csrfToken
    issued := some token }

def publishMint (m : AdoptionMessage) : Origin :=
  { o.setTab t { o.tabs t with slots := ⟨some m, some m⟩, phase := .grace } with
    marker := some ⟨m.waveId, m.contextId, m.sentAt⟩
    channel := m :: o.channel }

def wave : Option HandoffMarker := o.marker.filter fun marker => marker.contextId = o.csrf

def tryAdopt : Option AdoptionMessage := (o.tabs t).slots.tryAdopt (o.clock t) o.csrf o.marker

end Origin

inductive Event
  | tick (now : Millis)
  | observe (t : TabId) (serverClockOffset : Millis)
  | refreshAccessToken (t : TabId)
  | adopt (t : TabId)
  | probe (t : TabId)
  | answer (t u : TabId) (clock : Clock)
  | lead (t : TabId)
  | dead (t : TabId)
  | respond (t : TabId) (token : Token)
  | publish (t : TabId)
  | settle (t : TabId)
  | hear (t : TabId)
  | stray (m : AdoptionMessage)

def Awaits (phase : Phase) (clock : Clock) (m : AdoptionMessage) : Prop :=
  match phase with
  | .probing marker _ _ => clock.Valid marker m
  | _ => False

inductive OriginStep (expiryMs : Token → Option Millis) (o : Origin) : Event → Origin → Prop
  | tick {now : Millis} (hnow : o.now ≤ now) : OriginStep expiryMs o (.tick now) { o with now := now }
  | observe (t : TabId) (serverClockOffset : Millis) :
      OriginStep expiryMs o (.observe t serverClockOffset)
        (o.setTab t { o.tabs t with serverClockOffset := serverClockOffset })
  | refreshAccessToken {t : TabId} (hphase : (o.tabs t).phase = .idle) :
      OriginStep expiryMs o (.refreshAccessToken t) (o.setPhase t .waiting)
  | tryAdopt {t : TabId} {m : AdoptionMessage} (hphase : (o.tabs t).phase = .waiting)
      (hlock : o.lock = none) (hadopt : o.tryAdopt t = some m) :
      OriginStep expiryMs o (.adopt t) (o.adopt t m)
  | adoptObserved {t : TabId} {marker : HandoffMarker} {m : AdoptionMessage}
      (hphase : (o.tabs t).phase = .waiting) (hlock : o.lock = none)
      (hadopt : o.tryAdopt t = none) (hwave : o.wave = some marker)
      (halready : (o.tabs t).slots.lastAdoption = some m) (hvalid : (o.clock t).Valid marker m) :
      OriginStep expiryMs o (.adopt t) (o.adopt t m)
  | probe {t : TabId} {marker : HandoffMarker} (hphase : (o.tabs t).phase = .waiting)
      (hlock : o.lock = none) (hadopt : o.tryAdopt t = none) (hwave : o.wave = some marker)
      (halready : ∀ m ∈ (o.tabs t).slots.lastAdoption, ¬ (o.clock t).Valid marker m) :
      OriginStep expiryMs o (.probe t)
        { o.setPhase t (.probing marker o.now []) with lock := some t }
  -- The answer of a tab, posted at its own clock since the probe, reaches the tab that asked.
  | answer {t u : TabId} {marker : HandoffMarker} {since : Millis} {heard : List TabId}
      {clock : Clock} {m : AdoptionMessage}
      (hphase : (o.tabs t).phase = .probing marker since heard)
      (hclock : since ≤ clock.now ∧ clock.now ≤ o.now)
      (hanswer : clock.answerProbe marker.waveId (o.tabs u).slots.heldMint = some m)
      (hvalid : (o.clock t).Valid marker m) :
      OriginStep expiryMs o (.answer t u clock) (((o.post m).hear t m).adopt t m)
  | refuse {t u : TabId} {marker : HandoffMarker} {since : Millis} {heard : List TabId}
      {clock : Clock} {m : AdoptionMessage}
      (hphase : (o.tabs t).phase = .probing marker since heard)
      (hclock : since ≤ clock.now ∧ clock.now ≤ o.now)
      (hanswer : clock.answerProbe marker.waveId (o.tabs u).slots.heldMint = some m)
      (hinvalid : ¬ (o.clock t).Valid marker m) :
      OriginStep expiryMs o (.answer t u clock)
        (((o.post m).hear t m).setPhase t (.probing marker since (u :: heard)))
  | lead {t : TabId} (hphase : (o.tabs t).phase = .waiting) (hlock : o.lock = none)
      (hadopt : o.tryAdopt t = none) (hwave : o.wave = none) :
      OriginStep expiryMs o (.lead t) (o.lead t)
  | dead {t : TabId} {marker : HandoffMarker} {since : Millis} {heard : List TabId}
      (hphase : (o.tabs t).phase = .probing marker since heard)
      (hnow : since + MINT_WAIT_MS ≤ o.now) : OriginStep expiryMs o (.dead t) (o.lead t)
  | respond {t : TabId} (token : Token) (csrfToken : Option Csrf)
      (hphase : (o.tabs t).phase = .posted) :
      OriginStep expiryMs o (.respond t token) (o.respond t token csrfToken)
  | publish {t : TabId} {token : Token} {contextId : Option Csrf} {waveId : WaveId}
      (hphase : (o.tabs t).phase = .stored contextId) (htoken : (o.tabs t).accessToken = some token)
      (hfresh : ∀ m ∈ o.channel, m.waveId ≠ waveId) :
      OriginStep expiryMs o (.publish t)
        (o.publishMint t ⟨waveId, token, contextId, o.now, expiryMs token⟩)
  | settle {t : TabId} (hphase : (o.tabs t).phase = .grace) :
      OriginStep expiryMs o (.settle t) { o.setPhase t .idle with lock := none }
  | hear {t : TabId} {m : AdoptionMessage} (hm : m ∈ o.channel)
      (hphase : ¬ Awaits (o.tabs t).phase (o.clock t) m) :
      OriginStep expiryMs o (.hear t) (o.hear t m)
  | hearAwaited {t : TabId} {m : AdoptionMessage} (hm : m ∈ o.channel)
      (hphase : Awaits (o.tabs t).phase (o.clock t) m) :
      OriginStep expiryMs o (.hear t) ((o.hear t m).adopt t m)
  | stray (m : AdoptionMessage) : OriginStep expiryMs o (.stray m) (o.post m)

/-- A page that knows no mint yet, at any time and under any cookie. -/
def Tab.Blank (tab : Tab) : Prop := tab.slots = ⟨none, none⟩ ∧ tab.phase = .idle

/-- No handoff marker, and no mint held, observed or on its way. -/
def waveSystem (expiryMs : Token → Option Millis) : System Origin Event where
  init o := o.lock = none ∧ o.marker = none ∧ o.channel = [] ∧ o.posts = 0 ∧ o.issued = none ∧
    ∀ t, (o.tabs t).Blank
  step := OriginStep expiryMs

def Phase.Pending : Phase → Prop
  | .waiting | .probing .. => True
  | _ => False

section Assumptions

variable (expiryMs : Token → Option Millis)

def Origin.UsableAt (o : Origin) (clock : Clock) : Prop :=
  ∀ token ∈ o.issued, clock.bearerUsable (expiryMs token)

def Origin.Unanswered (o : Origin) (marker : HandoffMarker) (heard : List TabId) : Prop :=
  ∃ u m, (o.tabs u).slots.heldMint = some m ∧ m.waveId = marker.waveId ∧ u ∉ heard

/-- What is assumed of a step. A call comes within the lifetime of the mint. Every holder answers
within the window, so that the window does not pass before and no verdict is given. The bearer stays
usable. A mint of another wave is of another context, as long as no marker stands. -/
def Timely (o : Origin) : Event → Prop
  | .tick now =>
    (∀ t marker since heard, (o.tabs t).phase = .probing marker since heard →
      o.Unanswered marker heard → now ≤ since + MINT_WAIT_MS) ∧
    ∀ t, o.UsableAt expiryMs ⟨now, (o.tabs t).serverClockOffset⟩
  | .observe _ serverClockOffset => o.UsableAt expiryMs ⟨o.now, serverClockOffset⟩
  | .refreshAccessToken _ => ∀ marker ∈ o.marker, o.now - marker.writtenAt < ADOPTION_TTL_MS
  | .answer _ _ clock => o.UsableAt expiryMs clock
  | .dead t => ∀ marker since heard, (o.tabs t).phase = .probing marker since heard →
      ¬ o.Unanswered marker heard
  | .respond _ token => ∀ t, (o.clock t).bearerUsable (expiryMs token)
  | .stray m => (∀ marker ∈ o.marker, m.waveId ≠ marker.waveId) ∧
      (o.marker = none → m.contextId ≠ o.csrf)
  | _ => True

/-- A bearer whose expiry is not known: no call is pending when the lifetime of its mint ends. -/
def Young (o : Origin) : Event → Prop
  | .tick now => ∀ token ∈ o.issued, expiryMs token = none → (∃ t, (o.tabs t).phase.Pending) →
      ∀ marker ∈ o.marker, now - marker.writtenAt < ADOPTION_TTL_MS
  | _ => True

end Assumptions

/-! ### The stages of a wave -/

section Stages

variable (expiryMs : Token → Option Millis)

def Phase.Resting (phase : Phase) : Prop := phase = .idle ∨ phase = .waiting

def Origin.Observed (o : Origin) : Prop :=
  ∀ t m, (o.tabs t).slots.lastAdoption = some m → m ∈ o.channel

structure OfWave (marker : HandoffMarker) (token : Token) (m : AdoptionMessage) : Prop where
  waveId : m.waveId = marker.waveId
  sameToken : m.token = token
  contextId : m.contextId = marker.contextId
  expiresAt : m.expiresAt = expiryMs token
  posted : marker.writtenAt ≤ m.sentAt
  original : expiryMs token = none → m.sentAt = marker.writtenAt

structure Before (o : Origin) : Prop where
  posts : o.posts = 0
  lock : o.lock = none
  marker : o.marker = none
  issued : o.issued = none
  resting : ∀ t, (o.tabs t).phase.Resting
  held : ∀ t, (o.tabs t).slots.heldMint = none
  foreign : ∀ m ∈ o.channel, m.contextId ≠ o.csrf

structure Leading (o : Origin) (t : TabId) : Prop where
  posts : o.posts = 1
  lock : o.lock = some t
  marker : o.marker = none
  resting : ∀ u, u ≠ t → (o.tabs u).phase.Resting
  held : ∀ u, (o.tabs u).slots.heldMint = none
  phase : (o.tabs t).phase = .posted ∧ o.issued = none ∨
    ∃ token, (o.tabs t).phase = .stored o.csrf ∧ (o.tabs t).accessToken = some token ∧
      o.issued = some token
  usable : ∀ u, o.UsableAt expiryMs (o.clock u)

/-- Who is behind the lock of a published wave: nobody, its leader in the grace, or a tab whose
probe is out and whose window has not passed. -/
def Locked (o : Origin) (marker : HandoffMarker) (token : Token) : Prop :=
  (o.lock = none ∧ ∀ t, (o.tabs t).phase.Resting) ∨
  ∃ t, o.lock = some t ∧ (∀ u, u ≠ t → (o.tabs u).phase.Resting) ∧
    ((o.tabs t).phase = .grace ∧ (o.tabs t).accessToken = some token ∨
      ∃ since, (o.tabs t).phase = .probing marker since [] ∧ marker.writtenAt ≤ since ∧
        since ≤ o.now ∧ o.now ≤ since + MINT_WAIT_MS)

structure Published (o : Origin) (marker : HandoffMarker) (token : Token) : Prop where
  posts : o.posts = 1
  stands : o.marker = some marker
  issued : o.issued = some token
  context : marker.contextId = o.csrf
  written : marker.writtenAt ≤ o.now
  holder : ∃ u m, (o.tabs u).slots.heldMint = some m
  held : ∀ u m, (o.tabs u).slots.heldMint = some m → OfWave expiryMs marker token m
  channel : ∀ m ∈ o.channel, m.waveId = marker.waveId → OfWave expiryMs marker token m
  usable : ∀ u, (o.clock u).bearerUsable (expiryMs token)
  young : expiryMs token = none → (∃ t, (o.tabs t).phase.Pending) →
    o.now - marker.writtenAt < ADOPTION_TTL_MS
  locked : Locked o marker token

inductive Stage (o : Origin) : Prop
  | before (h : Before o)
  | leading (t : TabId) (h : Leading expiryMs o t)
  | published (marker : HandoffMarker) (token : Token) (h : Published expiryMs o marker token)

end Stages

section Steps

variable {expiryMs : Token → Option Millis} {o o' : Origin} {e : Event} {t u : TabId}
  {marker : HandoffMarker} {token : Token} {m : AdoptionMessage} {clock : Clock}

theorem tabs_setTab (tab : Tab) (u : TabId) :
    (Function.update o.tabs t tab) u = if u = t then tab else o.tabs u := by
  by_cases h : u = t
  · subst h
    rw [Function.update_self, if_pos rfl]
  · rw [Function.update_of_ne h, if_neg h]

/-- A property of every tab is kept by a step of one of them. -/
theorem forall_setTab {P : TabId → Tab → Prop} {tab : Tab} (hold : ∀ u, P u (o.tabs u))
    (hnew : P t tab) (u : TabId) : P u ((Function.update o.tabs t tab) u) := by
  rw [tabs_setTab]
  split
  next h =>
    subst h
    exact hnew
  next => exact hold u

theorem not_resting_probing {since : Millis} {heard : List TabId} :
    ¬ (Phase.probing marker since heard).Resting := by
  rintro (h | h) <;> cases h

theorem not_resting_posted : ¬ Phase.posted.Resting := by
  rintro (h | h) <;> cases h

theorem not_resting_stored {contextId : Option Csrf} : ¬ (Phase.stored contextId).Resting := by
  rintro (h | h) <;> cases h

theorem not_resting_grace : ¬ Phase.grace.Resting := by
  rintro (h | h) <;> cases h

theorem Phase.Resting.not_awaits {phase : Phase} (h : phase.Resting) : ¬ Awaits phase clock m := by
  rcases h with rfl | rfl <;> exact fun h => h

theorem Observed.hear (ho : o.Observed) (hm : m ∈ o.channel) : (o.hear t m).Observed := by
  intro u
  refine forall_setTab (P := fun _ tab => ∀ m', tab.slots.lastAdoption = some m' → m' ∈ o.channel)
    (fun u m' h => ho u m' h) (fun m' h => ?_) u
  obtain rfl := Option.some.inj h
  exact hm

theorem Observed.setTab {tab : Tab} (ho : o.Observed)
    (htabs : o'.tabs = Function.update o.tabs t tab)
    (hslots : tab.slots.lastAdoption = (o.tabs t).slots.lastAdoption)
    (hchannel : ∀ m ∈ o.channel, m ∈ o'.channel) : o'.Observed := by
  intro u
  rw [htabs]
  refine forall_setTab (P := fun _ tab => ∀ m', tab.slots.lastAdoption = some m' → m' ∈ o'.channel)
    (fun u m' h => hchannel m' (ho u m' h)) (fun m' h => ?_) u
  rw [hslots] at h
  exact hchannel m' (ho t m' h)

theorem Observed.adopt (ho : o.Observed) : (o.adopt t m).Observed :=
  Observed.setTab (t := t) ho rfl rfl fun _ h => h

theorem observed_step (ho : o.Observed) (hstep : OriginStep expiryMs o e o') : o'.Observed := by
  have hpost : ∀ m, (o.post m).Observed := fun m u m' h => List.mem_cons_of_mem _ (ho u m' h)
  cases hstep with
  | tick => exact ho
  | observe t => exact Observed.setTab (t := t) ho rfl rfl fun _ h => h
  | @refreshAccessToken t => exact Observed.setTab (t := t) ho rfl rfl fun _ h => h
  | tryAdopt => exact Observed.adopt ho
  | adoptObserved => exact Observed.adopt ho
  | @probe t => exact Observed.setTab (t := t) ho rfl rfl fun _ h => h
  | answer => exact Observed.adopt (Observed.hear (hpost _) (List.mem_cons_self ..))
  | @refuse t =>
    exact Observed.setTab (t := t) (Observed.hear (hpost _) (List.mem_cons_self ..)) rfl rfl
      fun _ h => h
  | @lead t => exact Observed.setTab (t := t) ho rfl rfl fun _ h => h
  | @dead t => exact Observed.setTab (t := t) ho rfl rfl fun _ h => h
  | @respond t => exact Observed.setTab (t := t) ho rfl rfl fun _ h => h
  | @publish t token contextId waveId =>
    intro u
    refine forall_setTab (P := fun _ tab => ∀ m', tab.slots.lastAdoption = some m' →
      m' ∈ _ :: o.channel) (fun u m' h => List.mem_cons_of_mem _ (ho u m' h)) (fun m' h => ?_) u
    obtain rfl := Option.some.inj h
    exact List.mem_cons_self ..
  | @settle t => exact Observed.setTab (t := t) ho rfl rfl fun _ h => h
  | hear hm => exact Observed.hear ho hm
  | hearAwaited hm => exact Observed.adopt (Observed.hear ho hm)
  | stray m => exact hpost m

end Steps

end CampusQuest.RefreshWave
