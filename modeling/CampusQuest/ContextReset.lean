import CampusQuest.Runs
import CampusQuest.Tables
import Mathlib.Logic.Function.Basic

/-!
The bearers of the tabs of one origin over its explicit logins and logouts. Each of them opens an
auth context. A tab holds its token and its mint in memory, hands the mint to the other tabs over
one channel and announces a new context over another one.
-/

namespace CampusQuest.ContextReset

open Tables Runs

abbrev TabId := ℕ
abbrev RotationId := ℕ
abbrev TransitionId := ℕ
abbrev ContextId := ℕ
abbrev Csrf := ℕ
abbrev WaveId := ℕ

structure Bearer where
  context : ContextId
  value : ℕ
  deriving DecidableEq, Repr

structure AdoptionMessage where
  waveId : WaveId
  token : Bearer
  contextId : Option Csrf
  deriving DecidableEq, Repr

structure HandoffMarker where
  waveId : WaveId
  contextId : Option Csrf
  /-- The context of the mint that it was written for. -/
  context : ContextId
  deriving DecidableEq, Repr

inductive LoginPath
  | loginStudent
  | loginWithPassword
  | registerStudent
  | verifyUnifiedChallenge
  | unifiedChallengeTotp
  | fastLoginCookieOnly
  | acceptStaffInvitation
  deriving DecidableEq, Repr

/-- The paths that begin and end a transition and broadcast the reset. The others adopt the tokens
and do nothing else. -/
def LoginPath.Transitions : LoginPath → Prop
  | .loginStudent | .loginWithPassword | .registerStudent => True
  | .verifyUnifiedChallenge | .unifiedChallengeTotp | .fastLoginCookieOnly
  | .acceptStaffInvitation => False

structure Rotation where
  id : RotationId
  epochAtStart : ℕ
  /-- The session that its request carries, once it is sent. -/
  sent : Option (Option ContextId)
  deriving DecidableEq, Repr

/-- How a login or a logout went. A logout that fails forgets the token all the same. -/
inductive Outcome
  | loginFailed
  | logoutFailed
  | loggedIn (token : Bearer)
  | loggedOut (context : ContextId)
  deriving DecidableEq, Repr

def Outcome.opened : Outcome → Option ContextId
  | .loginFailed | .logoutFailed => none
  | .loggedIn token => some token.context
  | .loggedOut context => some context

inductive TransitionPhase
  | draining (awaited : Option RotationId)
  | sent
  | answered (outcome : Outcome)
  | ended
  deriving DecidableEq, Repr

structure Tab where
  accessToken : Option Bearer
  heldMint : Option AdoptionMessage
  lastAdoption : Option AdoptionMessage
  authEpoch : ℕ
  transitionActive : Bool
  refreshInFlight : Option Rotation
  transitions : Table TransitionId TransitionPhase

namespace Tab

variable (tab : Tab)

def refreshAccessToken (id : RotationId) : Tab :=
  if tab.transitionActive = true then tab
  else match tab.refreshInFlight with
    | none => { tab with refreshInFlight := some ⟨id, tab.authEpoch, none⟩ }
    | some _ => tab

def settle : Tab := { tab with refreshInFlight := none }

/-- The adoption of a mint: the held one, or the one that was observed last. -/
def adopt (candidate : AdoptionMessage) : Tab :=
  { tab with
    accessToken := some candidate.token
    heldMint := some candidate
    refreshInFlight := none }

def post (rotation : Rotation) (session : Option ContextId) : Tab :=
  { tab with refreshInFlight := some { rotation with sent := some session } }

/-- A response in the epoch of the request: the token is stored and its mint is held. -/
def storeMint (mint : AdoptionMessage) : Tab :=
  { tab with
    accessToken := some mint.token
    heldMint := some mint
    lastAdoption := some mint
    refreshInFlight := none }

/-- The failure of a rotation, which forgets the token in its own epoch only. -/
def forget (rotation : Rotation) : Tab :=
  { tab with
    accessToken := if tab.authEpoch = rotation.epochAtStart then none else tab.accessToken
    refreshInFlight := none }

def beginAuthTransition (id : TransitionId) : Tab :=
  { tab with
    transitionActive := true
    authEpoch := tab.authEpoch + 1
    transitions := tab.transitions.put id
      (.draining (tab.refreshInFlight.map Rotation.id)) }

def putTransition (id : TransitionId) (phase : TransitionPhase) : Tab :=
  { tab with transitions := tab.transitions.put id phase }

def record : Outcome → Tab
  | .loginFailed => tab
  | .loggedIn token => { tab with accessToken := some token, authEpoch := tab.authEpoch + 1 }
  | .logoutFailed | .loggedOut _ => { tab with accessToken := none, authEpoch := tab.authEpoch + 1 }

def endAuthTransition (id : TransitionId) : Tab :=
  { tab with
    heldMint := none
    lastAdoption := none
    transitionActive := false
    transitions := tab.transitions.put id .ended }

def onContextReset : Tab :=
  { tab with
    accessToken := none
    heldMint := none
    lastAdoption := none
    authEpoch := tab.authEpoch + 1 }

def Drained (awaited : Option RotationId) : Prop :=
  ∀ rotation, tab.refreshInFlight = some rotation → awaited ≠ some rotation.id

/-- The token, the held mint and the observed mint are of this context. -/
structure Within (context : ContextId) : Prop where
  token : ∀ b, tab.accessToken = some b → b.context = context
  held : ∀ m, tab.heldMint = some m → m.token.context = context
  observed : ∀ m, tab.lastAdoption = some m → m.token.context = context

end Tab

/-- The tabs, the cookies, the marker and the messages that are under way. -/
structure Origin where
  tabs : TabId → Tab
  /-- The context that the last explicit login or logout opened. -/
  context : ContextId
  session : Option ContextId
  csrf : Option Csrf
  marker : Option HandoffMarker
  mints : TabId → List AdoptionMessage
  resets : TabId → ℕ

namespace Origin

def setTab (o : Origin) (t : TabId) (tab : Tab) : Origin :=
  { o with tabs := Function.update o.tabs t tab }

/-- `postToAdoptionChannel`: every listener hears it, the one of the sender as well. -/
def postMint (o : Origin) (mint : AdoptionMessage) : Origin :=
  { o with mints := fun t => mint :: o.mints t }

/-- The channel half of `broadcastContextReset`. The sender's own listener drops the message. -/
def broadcastContextReset (o : Origin) (t : TabId) : Origin :=
  { o with
    marker := none
    resets := fun t' => if t' = t then o.resets t' else o.resets t' + 1 }

/-- The response of a refresh. The cookies are written whatever the tab does with it, and a
response in another epoch is dropped. -/
def refreshResponse (o : Origin) (t : TabId) (rotation : Rotation) (context : ContextId)
    (csrf : Csrf) (mint : AdoptionMessage) : Origin :=
  let o' := { o with session := some context, csrf := some csrf }
  if (o.tabs t).authEpoch = rotation.epochAtStart then
    { (o'.setTab t ((o.tabs t).storeMint mint)).postMint mint with
      marker := some ⟨mint.waveId, mint.contextId, mint.token.context⟩ }
  else o'.setTab t (o.tabs t).settle

/-- The response of a login or a logout writes the cookies of the context that it opens. -/
def openContext (o : Origin) (session : Option ContextId) (csrf : Option Csrf) : Origin :=
  { o with context := o.context + 1, session := session, csrf := csrf }

end Origin

inductive Event
  | refreshAccessToken (t : TabId) (r : RotationId)
  | giveUp (t : TabId)
  | adopt (t : TabId) (m : AdoptionMessage)
  | postRefresh (t : TabId)
  | refreshResponse (t : TabId) (context : ContextId)
  | refreshFailed (t : TabId)
  | answerProbe (t : TabId) (m : AdoptionMessage)
  | deliverMint (t : TabId) (m : AdoptionMessage)
  | deliverReset (t : TabId)
  | beginAuthTransition (t : TabId) (k : TransitionId)
  | postTransition (t : TabId) (k : TransitionId)
  | loginResponse (t : TabId) (k : TransitionId)
  | logoutResponse (t : TabId) (k : TransitionId)
  | transitionFailed (t : TabId) (k : TransitionId)
  | endAuthTransition (t : TabId) (k : TransitionId) (outcome : Outcome)
  | adoptFullLogin (t : TabId) (path : LoginPath)
  deriving DecidableEq, Repr

/-- One task of one tab, one response of the network or one delivery. -/
inductive OriginStep (o : Origin) : Event → Origin → Prop
  | refreshAccessToken {t : TabId} {r : RotationId} :
      OriginStep o (.refreshAccessToken t r) (o.setTab t ((o.tabs t).refreshAccessToken r))
  | giveUp {t : TabId} {rotation : Rotation}
      (hflight : (o.tabs t).refreshInFlight = some rotation) (hsent : rotation.sent = none) :
      OriginStep o (.giveUp t) (o.setTab t (o.tabs t).settle)
  | adopt {t : TabId} {rotation : Rotation} {m : AdoptionMessage}
      (hflight : (o.tabs t).refreshInFlight = some rotation) (hsent : rotation.sent = none)
      (hepoch : (o.tabs t).authEpoch = rotation.epochAtStart)
      (hactive : (o.tabs t).transitionActive = false)
      (hcandidate : (o.tabs t).heldMint = some m ∨ (o.tabs t).lastAdoption = some m)
      (hcontext : m.contextId = o.csrf)
      (hmarker : ∀ marker, o.marker = some marker → marker.contextId = o.csrf →
        marker.waveId = m.waveId) :
      OriginStep o (.adopt t m) (o.setTab t ((o.tabs t).adopt m))
  | postRefresh {t : TabId} {rotation : Rotation}
      (hflight : (o.tabs t).refreshInFlight = some rotation) (hsent : rotation.sent = none) :
      OriginStep o (.postRefresh t)
        { o.setTab t ((o.tabs t).post rotation o.session) with marker := none }
  | refreshResponse {t : TabId} {rotation : Rotation} {context : ContextId} {csrf : Csrf}
      {mint : AdoptionMessage} (hflight : (o.tabs t).refreshInFlight = some rotation)
      (hsent : rotation.sent = some (some context)) (hmint : mint.token.context = context) :
      OriginStep o (.refreshResponse t context) (o.refreshResponse t rotation context csrf mint)
  | refreshFailed {t : TabId} {rotation : Rotation}
      (hflight : (o.tabs t).refreshInFlight = some rotation) (hsent : rotation.sent ≠ none) :
      OriginStep o (.refreshFailed t) (o.setTab t ((o.tabs t).forget rotation))
  | answerProbe {t : TabId} {m : AdoptionMessage} (hheld : (o.tabs t).heldMint = some m) :
      OriginStep o (.answerProbe t m) (o.postMint m)
  | deliverMint {t : TabId} {m : AdoptionMessage} (hmem : m ∈ o.mints t) :
      OriginStep o (.deliverMint t m)
        { o.setTab t { o.tabs t with lastAdoption := some m } with
          mints := Function.update o.mints t ((o.mints t).erase m) }
  | deliverReset {t : TabId} (hpending : 0 < o.resets t) :
      OriginStep o (.deliverReset t)
        { o.setTab t (o.tabs t).onContextReset with
          resets := Function.update o.resets t (o.resets t - 1) }
  | beginAuthTransition {t : TabId} {k : TransitionId}
      (hnew : (o.tabs t).transitions.get k = none) :
      OriginStep o (.beginAuthTransition t k) (o.setTab t ((o.tabs t).beginAuthTransition k))
  | postTransition {t : TabId} {k : TransitionId} {awaited : Option RotationId}
      (hphase : (o.tabs t).transitions.get k = some (.draining awaited))
      (hdrained : (o.tabs t).Drained awaited) :
      OriginStep o (.postTransition t k) (o.setTab t ((o.tabs t).putTransition k .sent))
  | loginResponse {t : TabId} {k : TransitionId} {token csrf : ℕ}
      (hphase : (o.tabs t).transitions.get k = some .sent) :
      OriginStep o (.loginResponse t k)
        ((o.setTab t ((o.tabs t).putTransition k
          (.answered (.loggedIn ⟨o.context + 1, token⟩)))).openContext
            (some (o.context + 1)) (some csrf))
  | logoutResponse {t : TabId} {k : TransitionId}
      (hphase : (o.tabs t).transitions.get k = some .sent) :
      OriginStep o (.logoutResponse t k)
        ((o.setTab t ((o.tabs t).putTransition k
          (.answered (.loggedOut (o.context + 1))))).openContext none none)
  | transitionFailed {t : TabId} {k : TransitionId} {outcome : Outcome}
      (hphase : (o.tabs t).transitions.get k = some .sent) (hopened : outcome.opened = none) :
      OriginStep o (.transitionFailed t k)
        (o.setTab t ((o.tabs t).putTransition k (.answered outcome)))
  | endAuthTransition {t : TabId} {k : TransitionId} {outcome : Outcome}
      (hphase : (o.tabs t).transitions.get k = some (.answered outcome)) :
      OriginStep o (.endAuthTransition t k outcome)
        ((o.setTab t (((o.tabs t).endAuthTransition k).record outcome)).broadcastContextReset t)
  | adoptFullLogin {t : TabId} {path : LoginPath} {token csrf : ℕ}
      (hpath : ¬ path.Transitions) :
      OriginStep o (.adoptFullLogin t path)
        ((o.setTab t ((o.tabs t).record (.loggedIn ⟨o.context + 1, token⟩))).openContext
          (some (o.context + 1)) (some csrf))

def Origin.loaded (csrf : Option Csrf) : Origin where
  tabs _ := ⟨none, none, none, 0, false, none, .empty⟩
  context := 0
  session := some 0
  csrf := csrf
  marker := none
  mints _ := []
  resets _ := 0

def originSystem : System Origin Event where
  init o := ∃ csrf, o = Origin.loaded csrf
  step := OriginStep

/-- No login leaves the transition out, no message or response of a closed context comes behind
the reset or the cookies of the new one, and the windows of two transitions do not interleave. -/
def Fencing (o : Origin) : Event → Prop
  | .adoptFullLogin _ _ => False
  | .refreshResponse _ context => context = o.context
  | .deliverMint t m => 0 < o.resets t ∨ m.token.context = o.context
  | .endAuthTransition t k outcome =>
    (∀ context, outcome.opened = some context → context = o.context) ∧
      ∀ k' phase, k' ≠ k → (o.tabs t).transitions.get k' = some phase →
        (∀ awaited, phase ≠ .draining awaited) ∧ phase ≠ .sent
  | _ => True

section Blocked

variable {tab tab' : Tab}

/-- While a transition waits its tab has no other rotation than the one it waits for, and none
when its request is out. -/
structure Tab.Blocked (tab : Tab) : Prop where
  draining : ∀ k awaited, tab.transitions.get k = some (.draining awaited) →
    tab.transitionActive = true ∧
      ∀ rotation, tab.refreshInFlight = some rotation → awaited = some rotation.id
  sent : ∀ k, tab.transitions.get k = some .sent →
    tab.transitionActive = true ∧ tab.refreshInFlight = none

/-- The rotation goes on or is over. -/
theorem Tab.Blocked.follow (h : tab.Blocked) (htransitions : tab'.transitions = tab.transitions)
    (hactive : tab'.transitionActive = tab.transitionActive)
    (hflight : ∀ rotation', tab'.refreshInFlight = some rotation' →
      ∃ rotation, tab.refreshInFlight = some rotation ∧ rotation.id = rotation'.id) :
    tab'.Blocked := by
  constructor
  · intro k awaited hk
    rw [htransitions] at hk
    refine ⟨hactive.trans (h.draining k awaited hk).1, fun rotation' hrotation' => ?_⟩
    obtain ⟨rotation, hrotation, hid⟩ := hflight rotation' hrotation'
    rw [← hid]
    exact (h.draining k awaited hk).2 rotation hrotation
  · intro k hk
    rw [htransitions] at hk
    refine ⟨hactive.trans (h.sent k hk).1, ?_⟩
    cases hrotation' : tab'.refreshInFlight with
    | none => rfl
    | some rotation' =>
      obtain ⟨rotation, hrotation, _⟩ := hflight rotation' hrotation'
      rw [(h.sent k hk).2] at hrotation
      cases hrotation

theorem Tab.Blocked.settled (h : tab.Blocked) (htransitions : tab'.transitions = tab.transitions)
    (hactive : tab'.transitionActive = tab.transitionActive)
    (hflight : tab'.refreshInFlight = none) : tab'.Blocked := by
  refine h.follow htransitions hactive fun rotation' hrotation' => ?_
  rw [hflight] at hrotation'
  cases hrotation'

theorem Tab.Blocked.refreshAccessToken (h : tab.Blocked) (r : RotationId) :
    (tab.refreshAccessToken r).Blocked := by
  unfold Tab.refreshAccessToken
  split
  · exact h
  next hidle =>
    split
    · -- No transition waits and none is out in a tab whose flag is down.
      constructor
      · intro k awaited hk
        exact absurd (h.draining k awaited hk).1 hidle
      · intro k hk
        exact absurd (h.sent k hk).1 hidle
    · exact h

theorem Tab.Blocked.beginAuthTransition (h : tab.Blocked) {k : TransitionId} :
    (tab.beginAuthTransition k).Blocked := by
  constructor
  · intro k' awaited hk'
    refine ⟨rfl, fun rotation hrotation => ?_⟩
    rcases Table.get_put_eq_some hk' with ⟨_, heq⟩ | ⟨_, hold⟩
    · obtain rfl := TransitionPhase.draining.inj heq
      change tab.refreshInFlight = some rotation at hrotation
      rw [hrotation]
      rfl
    · exact (h.draining k' awaited hold).2 rotation hrotation
  · intro k' hk'
    rcases Table.get_put_eq_some hk' with ⟨_, heq⟩ | ⟨_, hold⟩
    · cases heq
    · exact ⟨rfl, (h.sent k' hold).2⟩

theorem Tab.Blocked.putTransition (h : tab.Blocked) {k : TransitionId} {phase : TransitionPhase}
    (hdraining : ∀ awaited, TransitionPhase.draining awaited ≠ phase)
    (hsent : TransitionPhase.sent = phase →
      tab.transitionActive = true ∧ tab.refreshInFlight = none) :
    (tab.putTransition k phase).Blocked := by
  constructor
  · intro k' awaited hk'
    rcases Table.get_put_eq_some hk' with ⟨_, heq⟩ | ⟨_, hold⟩
    · exact absurd heq (hdraining awaited)
    · exact h.draining k' awaited hold
  · intro k' hk'
    rcases Table.get_put_eq_some hk' with ⟨_, heq⟩ | ⟨_, hold⟩
    · exact hsent heq
    · exact h.sent k' hold

theorem Tab.Blocked.drained (h : tab.Blocked) {k : TransitionId} {awaited : Option RotationId}
    (hphase : tab.transitions.get k = some (.draining awaited)) (hdrained : tab.Drained awaited) :
    tab.transitionActive = true ∧ tab.refreshInFlight = none := by
  refine ⟨(h.draining k awaited hphase).1, ?_⟩
  cases hflight : tab.refreshInFlight with
  | none => rfl
  | some rotation =>
    exact absurd ((h.draining k awaited hphase).2 rotation hflight) (hdrained rotation hflight)

/-- No other transition of the tab is open when one ends. -/
theorem Tab.blocked_endAuthTransition {k : TransitionId} (outcome : Outcome)
    (hothers : ∀ k' phase, k' ≠ k → tab.transitions.get k' = some phase →
      (∀ awaited, phase ≠ .draining awaited) ∧ phase ≠ .sent) :
    ((tab.endAuthTransition k).record outcome).Blocked := by
  have hnone : ∀ k' phase, (tab.transitions.put k .ended).get k' = some phase →
      (∀ awaited, phase ≠ .draining awaited) ∧ phase ≠ .sent := by
    intro k' phase hk'
    rcases Table.get_put_eq_some hk' with ⟨_, rfl⟩ | ⟨hne, hold⟩
    · exact ⟨fun _ heq => (by cases heq), fun heq => (by cases heq)⟩
    · exact hothers k' phase hne hold
  have htransitions : ((tab.endAuthTransition k).record outcome).transitions =
      tab.transitions.put k .ended := by
    cases outcome <;> rfl
  constructor
  · intro k' awaited hk'
    rw [htransitions] at hk'
    exact absurd rfl ((hnone k' _ hk').1 awaited)
  · intro k' hk'
    rw [htransitions] at hk'
    exact absurd rfl (hnone k' _ hk').2

end Blocked

end CampusQuest.ContextReset
