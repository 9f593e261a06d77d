import CampusQuest.Handoff
import CampusQuest.Runs
import CampusQuest.Tables

/-!
The requests of one tab over its auth epochs. A request that is refused asks for a refresh, alone
or together with others, and is sent once more when the refresh succeeds. Logins, logouts and the
resets of other tabs change the epoch at any moment in between.
-/

namespace CampusQuest.RequestReplay

open Handoff Tables Runs

abbrev RequestId := ℕ
abbrev RotationId := ℕ

/-- How far a rotation has come. After its response it stores the token, publishes the mint and
keeps the lock for a short grace. -/
inductive RotationPhase
  | waiting
  | deciding
  | sent
  | stored
  | grace
  | settled (ok : Bool)
  deriving DecidableEq, Repr

def RotationPhase.Succeeded : RotationPhase → Prop
  | .stored | .grace | .settled true => True
  | _ => False

structure Rotation where
  epochAtStart : ℕ
  phase : RotationPhase
  deriving DecidableEq, Repr

inductive RequestPhase
  | sent
  | waits (r : RotationId)
  | retried
  | surfaced
  deriving DecidableEq, Repr

/-- A request of `performApiRequest`, with the token and the epoch that it was sent under. -/
structure Request where
  authEpochUsed : ℕ
  tokenUsed : Option Token
  phase : RequestPhase
  deriving DecidableEq, Repr

/-- The module state of the tab, the marker that it last wrote, and its calls. -/
structure Page where
  authEpoch : ℕ
  transitionActive : Bool
  accessToken : Option Token
  heldMint : Option Token
  marker : Option RotationId
  refreshInFlight : Option RotationId
  rotations : Table RotationId Rotation
  requests : Table RequestId Request

inductive Event
  | send (q : RequestId)
  | resend (q : RequestId)
  | start (q : Option RequestId) (r : RotationId)
  | join (q : RequestId)
  | surface (q : RequestId)
  | enter (r : RotationId)
  | adopt (r : RotationId)
  | post (r : RotationId)
  | store (r : RotationId)
  | publish (r : RotationId)
  | settle (r : RotationId)
  | fail (r : RotationId)
  | free
  | recordLogin
  | recordLogout
  | beginAuthTransition
  | endAuthTransition
  | contextReset
  | broadcastContextReset
  deriving DecidableEq, Repr

namespace Page

variable (p : Page)

def setPhase (r : RotationId) (rotation : Rotation) (phase : RotationPhase) : Page :=
  { p with rotations := p.rotations.put r { rotation with phase := phase } }

def setRequest (q : RequestId) (request : Request) (phase : RequestPhase) : Page :=
  { p with requests := p.requests.put q { request with phase := phase } }

def startRotation (r : RotationId) : Page :=
  { p with
    refreshInFlight := some r
    rotations := p.rotations.put r ⟨p.authEpoch, .waiting⟩ }

def InContext (rotation : Rotation) : Prop :=
  p.authEpoch = rotation.epochAtStart ∧ p.transitionActive = false

/-- The refused request is of this epoch, and no other token has come since. -/
def NeedsRefresh (request : Request) : Prop :=
  request.phase = .sent ∧ p.authEpoch = request.authEpochUsed ∧
    (p.accessToken = none ∨ p.accessToken = request.tokenUsed)

end Page

/-- One task of the tab. A retry behind a refresh does not look at the epoch again, and nor does
the publication behind a response. -/
inductive PageStep (p : Page) : Event → Page → Prop
  | send {q : RequestId} (hnew : p.requests.get q = none) :
      PageStep p (.send q)
        { p with requests := p.requests.put q ⟨p.authEpoch, p.accessToken, .sent⟩ }
  | resendAtOnce {q : RequestId} {request : Request} (hget : p.requests.get q = some request)
      (hphase : request.phase = .sent) (hepoch : p.authEpoch = request.authEpochUsed)
      (htoken : p.accessToken ≠ none ∧ p.accessToken ≠ request.tokenUsed) :
      PageStep p (.resend q) (p.setRequest q request .retried)
  | resendRefreshed {q : RequestId} {request : Request} {r : RotationId} {rotation : Rotation}
      (hget : p.requests.get q = some request) (hphase : request.phase = .waits r)
      (hrotation : p.rotations.get r = some rotation) (hok : rotation.phase = .settled true) :
      PageStep p (.resend q) (p.setRequest q request .retried)
  | start {q : RequestId} {request : Request} {r : RotationId}
      (hget : p.requests.get q = some request) (hneeds : p.NeedsRefresh request)
      (hactive : p.transitionActive = false) (hslot : p.refreshInFlight = none)
      (hfresh : p.rotations.get r = none) :
      PageStep p (.start (some q) r) ((p.startRotation r).setRequest q request (.waits r))
  | bootstrap {r : RotationId} (hactive : p.transitionActive = false)
      (hslot : p.refreshInFlight = none) (hfresh : p.rotations.get r = none) :
      PageStep p (.start none r) (p.startRotation r)
  | join {q : RequestId} {request : Request} {r : RotationId}
      (hget : p.requests.get q = some request) (hneeds : p.NeedsRefresh request)
      (hactive : p.transitionActive = false) (hslot : p.refreshInFlight = some r) :
      PageStep p (.join q) (p.setRequest q request (.waits r))
  | surface {q : RequestId} {request : Request} (hget : p.requests.get q = some request) :
      PageStep p (.surface q) (p.setRequest q request .surfaced)
  | enter {r : RotationId} {rotation : Rotation} (hget : p.rotations.get r = some rotation)
      (hphase : rotation.phase = .waiting) (hcontext : p.InContext rotation) :
      PageStep p (.enter r) (p.setPhase r rotation .deciding)
  | adopt {r : RotationId} {rotation : Rotation} {token : Token}
      (hget : p.rotations.get r = some rotation)
      (hphase : rotation.phase = .waiting ∨ rotation.phase = .deciding)
      (hcontext : p.InContext rotation) :
      PageStep p (.adopt r)
        { p.setPhase r rotation (.settled true) with
          accessToken := some token
          heldMint := some token }
  | post {r : RotationId} {rotation : Rotation} (hget : p.rotations.get r = some rotation)
      (hphase : rotation.phase = .deciding) :
      PageStep p (.post r) { p.setPhase r rotation .sent with marker := none }
  | store {r : RotationId} {rotation : Rotation} {token : Token}
      (hget : p.rotations.get r = some rotation) (hphase : rotation.phase = .sent)
      (hepoch : p.authEpoch = rotation.epochAtStart) :
      PageStep p (.store r) { p.setPhase r rotation .stored with accessToken := some token }
  | publish {r : RotationId} {rotation : Rotation} (hget : p.rotations.get r = some rotation)
      (hphase : rotation.phase = .stored) :
      PageStep p (.publish r)
        { p.setPhase r rotation .grace with heldMint := p.accessToken, marker := some r }
  | settle {r : RotationId} {rotation : Rotation} (hget : p.rotations.get r = some rotation)
      (hphase : rotation.phase = .grace) :
      PageStep p (.settle r) (p.setPhase r rotation (.settled true))
  | fail {r : RotationId} {rotation : Rotation} (hget : p.rotations.get r = some rotation)
      (hphase : rotation.phase = .waiting ∨ rotation.phase = .deciding ∨ rotation.phase = .sent) :
      PageStep p (.fail r)
        { p.setPhase r rotation (.settled false) with
          accessToken :=
            if rotation.phase = .sent ∧ p.authEpoch = rotation.epochAtStart then none
            else p.accessToken }
  | free {r : RotationId} {rotation : Rotation} {ok : Bool} (hslot : p.refreshInFlight = some r)
      (hget : p.rotations.get r = some rotation) (hphase : rotation.phase = .settled ok) :
      PageStep p .free { p with refreshInFlight := none }
  | recordLogin {token : Token} :
      PageStep p .recordLogin
        { p with accessToken := some token, authEpoch := p.authEpoch + 1 }
  | recordLogout :
      PageStep p .recordLogout { p with accessToken := none, authEpoch := p.authEpoch + 1 }
  | beginAuthTransition :
      PageStep p .beginAuthTransition
        { p with transitionActive := true, authEpoch := p.authEpoch + 1 }
  | endAuthTransition : PageStep p .endAuthTransition { p with transitionActive := false }
  | contextReset :
      PageStep p .contextReset
        { p with accessToken := none, heldMint := none, authEpoch := p.authEpoch + 1 }
  | broadcastContextReset :
      PageStep p .broadcastContextReset { p with heldMint := none, marker := none }

def Page.loaded : Page := ⟨0, false, none, none, none, none, .empty, .empty⟩

def pageSystem : System Page Event where
  init p := p = Page.loaded
  step := PageStep

def Event.OpensEpoch : Event → Prop
  | .recordLogin | .recordLogout | .beginAuthTransition | .contextReset => True
  | _ => False

/-- No other epoch opens while a rotation has its token to publish, or while a request waits for a
rotation that has its token. -/
def Undivided (p : Page) (e : Event) : Prop :=
  e.OpensEpoch → (∀ r rotation, p.rotations.get r = some rotation → rotation.phase ≠ .stored) ∧
    ∀ q request r rotation, p.requests.get q = some request → request.phase = .waits r →
      p.rotations.get r = some rotation → ¬ rotation.phase.Succeeded

section Fenced

variable {p p' : Page} {e : Event}

structure Fenced (p : Page) : Prop where
  request : ∀ q request, p.requests.get q = some request → request.authEpochUsed ≤ p.authEpoch
  rotation : ∀ r rotation, p.rotations.get r = some rotation →
    rotation.epochAtStart ≤ p.authEpoch ∧
      (rotation.phase = .stored → rotation.epochAtStart = p.authEpoch)
  waits : ∀ q request r, p.requests.get q = some request → request.phase = .waits r →
    ∃ rotation, p.rotations.get r = some rotation ∧
      rotation.epochAtStart ≤ request.authEpochUsed ∧
      (rotation.phase.Succeeded → request.authEpochUsed = p.authEpoch)
  slot : ∀ r, p.refreshInFlight = some r → p.rotations.get r ≠ none

/-- A step that changes neither the epoch nor the calls. -/
theorem Fenced.same (hp : Fenced p) (hepoch : p'.authEpoch = p.authEpoch)
    (hrotations : p'.rotations = p.rotations) (hrequests : p'.requests = p.requests)
    (hslot : ∀ r, p'.refreshInFlight = some r → p.refreshInFlight = some r) : Fenced p' := by
  constructor
  · rw [hepoch, hrequests]
    exact hp.request
  · rw [hepoch, hrotations]
    exact hp.rotation
  · rw [hepoch, hrotations, hrequests]
    exact hp.waits
  · rw [hrotations]
    exact fun r hr => hp.slot r (hslot r hr)

/-- A request that is new or goes on. -/
theorem Fenced.putRequest (hp : Fenced p) {q : RequestId} {request : Request}
    (hepoch : p'.authEpoch = p.authEpoch) (hrotations : p'.rotations = p.rotations)
    (hslot : p'.refreshInFlight = p.refreshInFlight)
    (hrequests : p'.requests = p.requests.put q request)
    (hused : request.authEpochUsed ≤ p.authEpoch)
    (hwaits : ∀ r, request.phase = .waits r → ∃ rotation, p.rotations.get r = some rotation ∧
      rotation.epochAtStart ≤ request.authEpochUsed ∧
      (rotation.phase.Succeeded → request.authEpochUsed = p.authEpoch)) : Fenced p' := by
  constructor
  · intro q' request' hget
    rw [hrequests] at hget
    rw [hepoch]
    rcases Table.get_put_eq_some hget with ⟨_, rfl⟩ | ⟨_, hold⟩
    · exact hused
    · exact hp.request q' request' hold
  · rw [hepoch, hrotations]
    exact hp.rotation
  · intro q' request' r hget hphase
    rw [hrequests] at hget
    rw [hepoch, hrotations]
    rcases Table.get_put_eq_some hget with ⟨_, rfl⟩ | ⟨_, hold⟩
    · exact hwaits r hphase
    · exact hp.waits q' request' r hold hphase
  · rw [hrotations, hslot]
    exact hp.slot

/-- A rotation that goes on. It gets its token in the epoch in which it started. -/
theorem Fenced.putPhase (hp : Fenced p) {r : RotationId} {rotation : Rotation}
    {phase : RotationPhase} (hget : p.rotations.get r = some rotation)
    (hepoch : p'.authEpoch = p.authEpoch) (hslot : p'.refreshInFlight = p.refreshInFlight)
    (hrequests : p'.requests = p.requests)
    (hrotations : p'.rotations = p.rotations.put r { rotation with phase := phase })
    (hsucceeds : phase.Succeeded → rotation.phase.Succeeded ∨
      rotation.epochAtStart = p.authEpoch)
    (hstored : phase = .stored → rotation.epochAtStart = p.authEpoch) : Fenced p' := by
  constructor
  · rw [hepoch, hrequests]
    exact hp.request
  · intro r' rotation' hget'
    rw [hrotations] at hget'
    rw [hepoch]
    rcases Table.get_put_eq_some hget' with ⟨_, rfl⟩ | ⟨_, hold⟩
    · exact ⟨(hp.rotation r rotation hget).1, hstored⟩
    · exact hp.rotation r' rotation' hold
  · intro q request r' hrequest hwaits
    rw [hrequests] at hrequest
    rw [hrotations, hepoch]
    obtain ⟨rotation', hget', hle, hdone⟩ := hp.waits q request r' hrequest hwaits
    by_cases hr : r' = r
    · subst hr
      obtain rfl := Option.some.inj (hget.symm.trans hget')
      refine ⟨_, Table.get_put_self _ _ _, hle, fun h => ?_⟩
      rcases hsucceeds h with hbefore | hnow
      · exact hdone hbefore
      · exact le_antisymm (hp.request q request hrequest) (hnow ▸ hle)
    · exact ⟨rotation', (Table.get_put_of_ne _ _ hr).trans hget', hle, hdone⟩
  · intro r' hr'
    rw [hslot] at hr'
    rw [hrotations]
    by_cases hr : r' = r
    · subst hr
      rw [Table.get_put_self]
      exact fun h => (by cases h)
    · rw [Table.get_put_of_ne _ _ hr]
      exact hp.slot r' hr'

theorem Fenced.startRotation (hp : Fenced p) {r : RotationId} (hfresh : p.rotations.get r = none) :
    Fenced (p.startRotation r) := by
  have hne : ∀ r' rotation, p.rotations.get r' = some rotation → r' ≠ r := by
    rintro r' rotation hget rfl
    rw [hfresh] at hget
    cases hget
  constructor
  · exact hp.request
  · intro r' rotation' hget'
    rcases Table.get_put_eq_some hget' with ⟨_, rfl⟩ | ⟨_, hold⟩
    · exact ⟨le_rfl, fun h => (by cases h)⟩
    · exact hp.rotation r' rotation' hold
  · intro q request r' hrequest hwaits
    obtain ⟨rotation', hget', hle, hdone⟩ := hp.waits q request r' hrequest hwaits
    exact ⟨rotation', (Table.get_put_of_ne _ _ (hne r' rotation' hget')).trans hget', hle, hdone⟩
  · intro r' hr'
    obtain rfl := Option.some.inj hr'
    change (p.rotations.put r _).get r ≠ none
    rw [Table.get_put_self]
    exact fun h => (by cases h)

/-- Another epoch opens where no rotation is to publish and nobody waits for one that is done. -/
theorem Fenced.openEpoch (hp : Fenced p) (hepoch : p'.authEpoch = p.authEpoch + 1)
    (hrotations : p'.rotations = p.rotations) (hrequests : p'.requests = p.requests)
    (hslot : p'.refreshInFlight = p.refreshInFlight)
    (hundivided : (∀ r rotation, p.rotations.get r = some rotation → rotation.phase ≠ .stored) ∧
      ∀ q request r rotation, p.requests.get q = some request → request.phase = .waits r →
        p.rotations.get r = some rotation → ¬ rotation.phase.Succeeded) : Fenced p' := by
  constructor
  · intro q request hget
    rw [hrequests] at hget
    rw [hepoch]
    exact (hp.request q request hget).trans (Nat.le_succ _)
  · intro r rotation hget
    rw [hrotations] at hget
    rw [hepoch]
    exact ⟨(hp.rotation r rotation hget).1.trans (Nat.le_succ _),
      fun h => absurd h (hundivided.1 r rotation hget)⟩
  · intro q request r hget hphase
    rw [hrequests] at hget
    rw [hrotations]
    obtain ⟨rotation, hrotation, hle, _⟩ := hp.waits q request r hget hphase
    exact ⟨rotation, hrotation, hle,
      fun h => absurd h (hundivided.2 q request r rotation hget hphase hrotation)⟩
  · rw [hrotations, hslot]
    exact hp.slot

theorem Fenced.step (hp : Fenced p) (hstep : PageStep p e p') (hundivided : Undivided p e) :
    Fenced p' := by
  cases hstep with
  | send => exact hp.putRequest rfl rfl rfl rfl le_rfl fun _ h => (by cases h)
  | @resendAtOnce q request hget =>
    have hused := hp.request q request hget
    exact hp.putRequest rfl rfl rfl rfl hused fun _ h => (by cases h)
  | @resendRefreshed q request _ _ hget =>
    have hused := hp.request q request hget
    exact hp.putRequest rfl rfl rfl rfl hused fun _ h => (by cases h)
  | @start q request r hget hneeds hactive hslot hfresh =>
    refine (hp.startRotation hfresh).putRequest rfl rfl rfl rfl (hp.request q request hget) ?_
    intro r' hr'
    obtain rfl := RequestPhase.waits.inj hr'
    exact ⟨_, Table.get_put_self _ _ _, hneeds.2.1.le, fun h => h.elim⟩
  | bootstrap hactive hslot hfresh => exact hp.startRotation hfresh
  | @join q request r hget hneeds hactive hslot =>
    refine hp.putRequest rfl rfl rfl rfl (hp.request q request hget) ?_
    intro r' hr'
    obtain rfl := RequestPhase.waits.inj hr'
    obtain ⟨rotation, hrotation⟩ := Option.ne_none_iff_exists'.mp (hp.slot r hslot)
    exact ⟨rotation, hrotation, (hp.rotation r rotation hrotation).1.trans hneeds.2.1.le,
      fun _ => hneeds.2.1.symm⟩
  | @surface q request hget =>
    have hused := hp.request q request hget
    exact hp.putRequest rfl rfl rfl rfl hused fun _ h => (by cases h)
  | enter hget =>
    exact hp.putPhase hget rfl rfl rfl rfl (fun h => h.elim) fun h => (by cases h)
  | adopt hget _ hcontext =>
    exact hp.putPhase hget rfl rfl rfl rfl (fun _ => .inr hcontext.1.symm) fun h => (by cases h)
  | post hget =>
    exact hp.putPhase hget rfl rfl rfl rfl (fun h => h.elim) fun h => (by cases h)
  | store hget _ hepoch =>
    exact hp.putPhase hget rfl rfl rfl rfl (fun _ => .inr hepoch.symm) fun _ => hepoch.symm
  | publish hget hphase =>
    refine hp.putPhase hget rfl rfl rfl rfl (fun _ => .inl ?_) fun h => (by cases h)
    rw [hphase]
    trivial
  | settle hget hphase =>
    refine hp.putPhase hget rfl rfl rfl rfl (fun _ => .inl ?_) fun h => (by cases h)
    rw [hphase]
    trivial
  | fail hget =>
    exact hp.putPhase hget rfl rfl rfl rfl (fun h => h.elim) fun h => (by cases h)
  | free => exact hp.same rfl rfl rfl fun _ h => (by cases h)
  | recordLogin => exact hp.openEpoch rfl rfl rfl rfl (hundivided trivial)
  | recordLogout => exact hp.openEpoch rfl rfl rfl rfl (hundivided trivial)
  | beginAuthTransition => exact hp.openEpoch rfl rfl rfl rfl (hundivided trivial)
  | endAuthTransition => exact hp.same rfl rfl rfl fun _ h => h
  | contextReset => exact hp.openEpoch rfl rfl rfl rfl (hundivided trivial)
  | broadcastContextReset => exact hp.same rfl rfl rfl fun _ h => h

theorem fenced_of_reach (h : (pageSystem.guarded Undivided).Reach p) : Fenced p := by
  induction h with
  | init hinit =>
    obtain rfl : _ = Page.loaded := hinit
    exact ⟨fun _ _ h => (by cases h), fun _ _ h => (by cases h), fun _ _ _ h => (by cases h),
      fun _ h => (by cases h)⟩
  | step _ hstep ih => exact ih.step hstep.1 hstep.2

end Fenced

/-- The rotation whose token, held credential or marker a step writes. -/
def Event.Writes (r : RotationId) : Event → Prop
  | .adopt r' | .store r' | .publish r' => r' = r
  | _ => False

/-- In every run whose epochs open neither before the publication of a stored token nor before the
retry of a request whose refresh has succeeded, a request is sent again in its own epoch only, and
a rotation writes in its own epoch only. -/
theorem no_replay_across_epochs {p p' : Page} {e : Event}
    (hreach : (pageSystem.guarded Undivided).Reach p)
    (hstep : (pageSystem.guarded Undivided).step p e p') :
    (∀ q request, e = .resend q → p.requests.get q = some request →
      request.authEpochUsed = p.authEpoch) ∧
    ∀ r rotation, e.Writes r → p.rotations.get r = some rotation →
      rotation.epochAtStart = p.authEpoch := by
  have hp := fenced_of_reach hreach
  constructor
  · rintro q request rfl hget
    cases hstep.1 with
    | resendAtOnce hget' _ hepoch =>
      obtain rfl := Option.some.inj (hget'.symm.trans hget)
      exact hepoch.symm
    | resendRefreshed hget' hphase hrotation hok =>
      obtain rfl := Option.some.inj (hget'.symm.trans hget)
      obtain ⟨rotation, hrotation', _, hdone⟩ := hp.waits q _ _ hget hphase
      obtain rfl := Option.some.inj (hrotation'.symm.trans hrotation)
      refine hdone ?_
      rw [hok]
      trivial
  · intro r rotation hwrites hget
    cases hstep.1 with
    | adopt hget' _ hcontext =>
      obtain rfl : _ = r := hwrites
      obtain rfl := Option.some.inj (hget'.symm.trans hget)
      exact hcontext.1.symm
    | store hget' _ hepoch =>
      obtain rfl : _ = r := hwrites
      obtain rfl := Option.some.inj (hget'.symm.trans hget)
      exact hepoch.symm
    | publish hget' hphase =>
      obtain rfl : _ = r := hwrites
      obtain rfl := Option.some.inj (hget'.symm.trans hget)
      exact (hp.rotation _ _ hget).2 hphase
    | _ => exact hwrites.elim

section Scene

def sceneRefused : Page :=
  { Page.loaded with requests := Table.empty.put 0 ⟨0, none, .sent⟩ }

def sceneWaits : Page := (sceneRefused.startRotation 0).setRequest 0 ⟨0, none, .sent⟩ (.waits 0)

def sceneDecides : Page := sceneWaits.setPhase 0 ⟨0, .waiting⟩ .deciding

def scenePosted : Page := { sceneDecides.setPhase 0 ⟨0, .deciding⟩ .sent with marker := none }

def sceneStored : Page :=
  { scenePosted.setPhase 0 ⟨0, .sent⟩ .stored with accessToken := some 5 }

def sceneGrace : Page :=
  { sceneStored.setPhase 0 ⟨0, .stored⟩ .grace with
    heldMint := sceneStored.accessToken
    marker := some 0 }

def sceneLogin : Page := { sceneGrace with accessToken := some 6, authEpoch := 1 }

theorem reach_grace (S : System Page Event) (hinit : S.init Page.loaded)
    (hstep : ∀ p e p', PageStep p e p' → Undivided p e → S.step p e p') : S.Reach sceneGrace := by
  have hsend : S.step Page.loaded (.send 0) sceneRefused :=
    hstep _ _ _ (.send rfl) fun h => h.elim
  have hstart : S.step sceneRefused (.start (some 0) 0) sceneWaits :=
    hstep _ _ _ (.start rfl ⟨rfl, rfl, .inl rfl⟩ rfl rfl rfl) fun h => h.elim
  have henter : S.step sceneWaits (.enter 0) sceneDecides :=
    hstep _ _ _ (.enter rfl rfl ⟨rfl, rfl⟩) fun h => h.elim
  have hpost : S.step sceneDecides (.post 0) scenePosted :=
    hstep _ _ _ (.post rfl rfl) fun h => h.elim
  have hstore : S.step scenePosted (.store 0) sceneStored :=
    hstep _ _ _ (.store rfl rfl rfl) fun h => h.elim
  have hpublish : S.step sceneStored (.publish 0) sceneGrace :=
    hstep _ _ _ (.publish rfl rfl) fun h => h.elim
  exact .step (.step (.step (.step (.step (.step (.init hinit) hsend) hstart) henter) hpost)
    hstore) hpublish

end Scene

/-- A login during the grace of a rotation: the refused request of the old account is sent again
with the token of the new one. -/
theorem replayed_after_login :
    ¬ ∀ (p p' : Page) (e : Event) (q : RequestId) (request : Request), pageSystem.Reach p →
      pageSystem.step p e p' → e = .resend q → p.requests.get q = some request →
      request.authEpochUsed = p.authEpoch := by
  intro hall
  have hlogin : pageSystem.step sceneGrace .recordLogin sceneLogin := .recordLogin
  have hsettle : pageSystem.step sceneLogin (.settle 0)
      (sceneLogin.setPhase 0 ⟨0, .grace⟩ (.settled true)) := .settle rfl rfl
  have hreach := System.Reach.step (.step (reach_grace pageSystem rfl fun _ _ _ h _ => h) hlogin)
    hsettle
  have hresend : pageSystem.step (sceneLogin.setPhase 0 ⟨0, .grace⟩ (.settled true)) (.resend 0) _ :=
    @PageStep.resendRefreshed _ 0 ⟨0, none, .waits 0⟩ 0 ⟨0, .settled true⟩ rfl rfl rfl rfl
  have hzero : (0 : ℕ) = 1 := hall _ _ _ 0 ⟨0, none, .waits 0⟩ hreach hresend rfl rfl
  cases hzero

/-- Without the login it is sent again in its own epoch. -/
theorem resent_in_epoch :
    (sceneGrace.setPhase 0 ⟨0, .grace⟩ (.settled true)).requests.get 0 =
      some ⟨0, none, .waits 0⟩ ∧
    (0 : ℕ) = (sceneGrace.setPhase 0 ⟨0, .grace⟩ (.settled true)).authEpoch := by
  have hsettle : PageStep sceneGrace (.settle 0)
      (sceneGrace.setPhase 0 ⟨0, .grace⟩ (.settled true)) := .settle rfl rfl
  have hreach : (pageSystem.guarded Undivided).Reach
      (sceneGrace.setPhase 0 ⟨0, .grace⟩ (.settled true)) :=
    .step (reach_grace (pageSystem.guarded Undivided) rfl fun _ _ _ h hu => ⟨h, hu⟩)
      ⟨hsettle, fun h => h.elim⟩
  have hresend : PageStep (sceneGrace.setPhase 0 ⟨0, .grace⟩ (.settled true)) (.resend 0) _ :=
    @PageStep.resendRefreshed _ 0 ⟨0, none, .waits 0⟩ 0 ⟨0, .settled true⟩ rfl rfl rfl rfl
  exact ⟨rfl, (no_replay_across_epochs hreach ⟨hresend, fun h => h.elim⟩).1 0 _ rfl rfl⟩

end CampusQuest.RequestReplay
