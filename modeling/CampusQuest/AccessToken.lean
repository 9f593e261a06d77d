import CampusQuest.Runs
import CampusQuest.Tables
import Mathlib.Logic.Function.Basic

/-!
The access tokens of the tabs of one origin. A tab rotates its session in a single flight, under
a lock that the tabs share, and an explicit login or logout raises a flag of its tab, waits for
the rotation that is in flight there and then sends its own request. The cookies belong to the
origin: every response writes them when it arrives.
-/

namespace CampusQuest.AccessToken

open Tables Runs

abbrev TabId := ℕ
abbrev RotationId := ℕ
abbrev TransitionId := ℕ

/-- How far a rotation has come: it waits for the lock, it decides between an adoption and the
network, its request is sent, or its response is there. -/
inductive RotationPhase
  | waiting
  | deciding
  | sent
  | answered
  deriving DecidableEq, Repr

structure Rotation where
  id : RotationId
  epochAtStart : ℕ
  phase : RotationPhase
  deriving DecidableEq, Repr

/-- How far a login or a logout has come. -/
inductive TransitionPhase
  | draining (awaited : Option RotationId)
  | sent
  | answered
  | ended
  deriving DecidableEq, Repr

structure Tab where
  transitionActive : Bool
  authEpoch : ℕ
  refreshInFlight : Option Rotation
  transitions : Table TransitionId TransitionPhase

inductive CookieWriter
  | refresh (id : RotationId)
  | transition (tab : TabId) (id : TransitionId)
  deriving DecidableEq, Repr

namespace Tab

variable (tab : Tab)

def refreshAccessToken (id : RotationId) : Tab :=
  if tab.transitionActive = true then tab
  else match tab.refreshInFlight with
    | none => { tab with refreshInFlight := some ⟨id, tab.authEpoch, .waiting⟩ }
    | some _ => tab

def settle : Tab := { tab with refreshInFlight := none }

def advance (rotation : Rotation) (phase : RotationPhase) : Tab :=
  { tab with refreshInFlight := some { rotation with phase := phase } }

/-- The entry of `adoptOrRotate`, which gives up in a transition or in another context. -/
def adoptOrRotate (rotation : Rotation) : Tab :=
  if tab.authEpoch = rotation.epochAtStart ∧ tab.transitionActive = false then
    tab.advance rotation .deciding
  else tab.settle

def beginAuthTransition (id : TransitionId) : Tab :=
  { tab with
    transitionActive := true
    authEpoch := tab.authEpoch + 1
    transitions := tab.transitions.put id
      (.draining (tab.refreshInFlight.map Rotation.id)) }

def putTransition (id : TransitionId) (phase : TransitionPhase) : Tab :=
  { tab with transitions := tab.transitions.put id phase }

def endAuthTransition (id : TransitionId) : Tab :=
  { tab with
    transitionActive := false
    transitions := tab.transitions.put id .ended }

def Drained (awaited : Option RotationId) : Prop :=
  ∀ rotation, tab.refreshInFlight = some rotation → awaited ≠ some rotation.id

end Tab

/-- The tabs with what they share: the lock, the refresh requests without a response, and the
cookies with their last writer. -/
structure Origin where
  tabs : TabId → Tab
  lock : Option RotationId
  wire : Table RotationId TabId
  /-- The tabs that drew the ids of their rotations. -/
  started : Table RotationId TabId
  cookies : Option CookieWriter

inductive Event
  | refreshAccessToken (t : TabId) (r : RotationId)
  | takeLock (t : TabId)
  | withoutLock (t : TabId)
  | giveUp (t : TabId)
  | withoutRequest (t : TabId)
  | postRefresh (t : TabId) (r : RotationId)
  | refreshResponse (t : TabId) (r : RotationId)
  | refreshFailed (t : TabId) (r : RotationId)
  | settle (t : TabId)
  | beginAuthTransition (t : TabId) (k : TransitionId)
  | postTransition (t : TabId) (k : TransitionId)
  | transitionResponse (t : TabId) (k : TransitionId)
  | transitionFailed (t : TabId) (k : TransitionId)
  | endAuthTransition (t : TabId) (k : TransitionId)
  deriving DecidableEq, Repr

namespace Origin

def setTab (o : Origin) (t : TabId) (tab : Tab) : Origin :=
  { o with tabs := Function.update o.tabs t tab }

/-- The lock is free again when the rotation that holds it settles. -/
def release (o : Origin) (r : RotationId) : Origin :=
  { o with lock := if o.lock = some r then none else o.lock }

end Origin

/-- One task of one tab, or one response of the network. A rotation that gives up at its entry
leaves the lock free. -/
inductive OriginStep (o : Origin) : Event → Origin → Prop
  | refreshAccessToken {t : TabId} {r : RotationId} (hnew : o.started.get r = none) :
      OriginStep o (.refreshAccessToken t r)
        { o.setTab t ((o.tabs t).refreshAccessToken r) with started := o.started.put r t }
  | takeLock {t : TabId} {rotation : Rotation}
      (hflight : (o.tabs t).refreshInFlight = some rotation) (hphase : rotation.phase = .waiting)
      (hfree : o.lock = none) :
      OriginStep o (.takeLock t)
        { o.setTab t ((o.tabs t).adoptOrRotate rotation) with
          lock := ((o.tabs t).adoptOrRotate rotation).refreshInFlight.map Rotation.id }
  | withoutLock {t : TabId} {rotation : Rotation}
      (hflight : (o.tabs t).refreshInFlight = some rotation) (hphase : rotation.phase = .waiting) :
      OriginStep o (.withoutLock t) (o.setTab t ((o.tabs t).adoptOrRotate rotation))
  | giveUp {t : TabId} {rotation : Rotation}
      (hflight : (o.tabs t).refreshInFlight = some rotation) (hphase : rotation.phase = .waiting) :
      OriginStep o (.giveUp t) (o.setTab t (o.tabs t).settle)
  | withoutRequest {t : TabId} {rotation : Rotation}
      (hflight : (o.tabs t).refreshInFlight = some rotation)
      (hphase : rotation.phase = .deciding) :
      OriginStep o (.withoutRequest t) ((o.setTab t (o.tabs t).settle).release rotation.id)
  | postRefresh {t : TabId} {rotation : Rotation}
      (hflight : (o.tabs t).refreshInFlight = some rotation)
      (hphase : rotation.phase = .deciding) :
      OriginStep o (.postRefresh t rotation.id)
        { o.setTab t ((o.tabs t).advance rotation .sent) with wire := o.wire.put rotation.id t }
  | refreshResponse {t : TabId} {rotation : Rotation}
      (hflight : (o.tabs t).refreshInFlight = some rotation)
      (hwire : o.wire.get rotation.id = some t) :
      OriginStep o (.refreshResponse t rotation.id)
        { o.setTab t ((o.tabs t).advance rotation .answered) with
          wire := o.wire.remove rotation.id
          cookies := some (.refresh rotation.id) }
  | refreshFailed {t : TabId} {rotation : Rotation}
      (hflight : (o.tabs t).refreshInFlight = some rotation)
      (hwire : o.wire.get rotation.id = some t) :
      OriginStep o (.refreshFailed t rotation.id)
        { o.setTab t ((o.tabs t).advance rotation .answered) with
          wire := o.wire.remove rotation.id }
  | settle {t : TabId} {rotation : Rotation}
      (hflight : (o.tabs t).refreshInFlight = some rotation)
      (hphase : rotation.phase = .answered) :
      OriginStep o (.settle t) ((o.setTab t (o.tabs t).settle).release rotation.id)
  | beginAuthTransition {t : TabId} {k : TransitionId}
      (hnew : (o.tabs t).transitions.get k = none) :
      OriginStep o (.beginAuthTransition t k) (o.setTab t ((o.tabs t).beginAuthTransition k))
  | postTransition {t : TabId} {k : TransitionId} {awaited : Option RotationId}
      (hphase : (o.tabs t).transitions.get k = some (.draining awaited))
      (hdrained : (o.tabs t).Drained awaited) :
      OriginStep o (.postTransition t k) (o.setTab t ((o.tabs t).putTransition k .sent))
  | transitionResponse {t : TabId} {k : TransitionId}
      (hphase : (o.tabs t).transitions.get k = some .sent) :
      OriginStep o (.transitionResponse t k)
        { o.setTab t ((o.tabs t).putTransition k .answered) with
          cookies := some (.transition t k) }
  | transitionFailed {t : TabId} {k : TransitionId}
      (hphase : (o.tabs t).transitions.get k = some .sent) :
      OriginStep o (.transitionFailed t k) (o.setTab t ((o.tabs t).putTransition k .answered))
  | endAuthTransition {t : TabId} {k : TransitionId}
      (hphase : (o.tabs t).transitions.get k = some .answered) :
      OriginStep o (.endAuthTransition t k) (o.setTab t ((o.tabs t).endAuthTransition k))

def Tab.loaded : Tab := ⟨false, 0, none, .empty⟩

def Origin.loaded : Origin := ⟨fun _ => Tab.loaded, none, .empty, .empty, none⟩

def originSystem : System Origin Event where
  init o := o = Origin.loaded
  step := OriginStep

/-- When a transition sends its request no other tab has a refresh request without a response, and
a transition does not end while another one of its tab still waits for the rotation. -/
def Serialized (o : Origin) : Event → Prop
  | .postTransition t _ => ∀ r t', o.wire.get r = some t' → t' = t
  | .endAuthTransition t k => ∀ k' awaited, k' ≠ k →
      (o.tabs t).transitions.get k' ≠ some (.draining awaited)
  | _ => True

section Order

variable {o o' : Origin} {e : Event} {t t' : TabId} {r : RotationId}

/-- A refresh request without a response is the rotation in flight of its tab, and while a
transition waits its tab has no other rotation than the one that it waits for. -/
structure Ordered (o : Origin) : Prop where
  wired : ∀ r t, o.wire.get r = some t → ∃ rotation,
    (o.tabs t).refreshInFlight = some rotation ∧ rotation.id = r ∧ rotation.phase = .sent
  drawn : ∀ t rotation, (o.tabs t).refreshInFlight = some rotation →
    o.started.get rotation.id = some t
  draining : ∀ t k awaited, (o.tabs t).transitions.get k = some (.draining awaited) →
    (o.tabs t).transitionActive = true ∧
      ∀ rotation, (o.tabs t).refreshInFlight = some rotation → awaited = some rotation.id

/-- A tab whose rotation goes on, or is over, beside the same transitions. -/
structure Tab.Follows (tab tab' : Tab) : Prop where
  transitions : tab'.transitions = tab.transitions
  active : tab'.transitionActive = tab.transitionActive
  rotation : ∀ rotation', tab'.refreshInFlight = some rotation' →
    ∃ rotation, tab.refreshInFlight = some rotation ∧ rotation.id = rotation'.id

theorem Tab.follows_settle (tab : Tab) : tab.Follows tab.settle :=
  ⟨rfl, rfl, fun _ h => (by cases h)⟩

theorem Tab.follows_advance {tab : Tab} {rotation : Rotation} (phase : RotationPhase)
    (h : tab.refreshInFlight = some rotation) : tab.Follows (tab.advance rotation phase) := by
  refine ⟨rfl, rfl, fun rotation' heq => ⟨rotation, h, ?_⟩⟩
  obtain rfl := Option.some.inj heq
  rfl

theorem Tab.follows_adoptOrRotate {tab : Tab} {rotation : Rotation}
    (h : tab.refreshInFlight = some rotation) : tab.Follows (tab.adoptOrRotate rotation) := by
  unfold Tab.adoptOrRotate
  split
  · exact Tab.follows_advance .deciding h
  · exact Tab.follows_settle tab

/-- A step of one tab keeps the order of the others. -/
theorem Ordered.of_tab {tab : Tab} (ho : Ordered o)
    (htabs : o'.tabs = Function.update o.tabs t tab)
    (hstarted : ∀ r t', o.started.get r = some t' → o'.started.get r = some t')
    (hwire : ∀ r t', o'.wire.get r = some t' → t' ≠ t → o.wire.get r = some t')
    (hwired : ∀ r, o'.wire.get r = some t → ∃ rotation, tab.refreshInFlight = some rotation ∧
      rotation.id = r ∧ rotation.phase = .sent)
    (hdrawn : ∀ rotation, tab.refreshInFlight = some rotation →
      o'.started.get rotation.id = some t)
    (hdraining : ∀ k awaited, tab.transitions.get k = some (.draining awaited) →
      tab.transitionActive = true ∧
        ∀ rotation, tab.refreshInFlight = some rotation → awaited = some rotation.id) :
    Ordered o' := by
  constructor
  · intro r t' hr
    rw [htabs]
    by_cases ht : t' = t
    · subst ht
      rw [Function.update_self]
      exact hwired r hr
    · rw [Function.update_of_ne ht]
      exact ho.wired r t' (hwire r t' hr ht)
  · intro t' rotation hflight
    rw [htabs] at hflight
    by_cases ht : t' = t
    · subst ht
      rw [Function.update_self] at hflight
      exact hdrawn rotation hflight
    · rw [Function.update_of_ne ht] at hflight
      exact hstarted _ _ (ho.drawn t' rotation hflight)
  · intro t' k awaited hphase
    rw [htabs] at hphase ⊢
    by_cases ht : t' = t
    · subst ht
      rw [Function.update_self] at hphase ⊢
      exact hdraining k awaited hphase
    · rw [Function.update_of_ne ht] at hphase ⊢
      exact ho.draining t' k awaited hphase

theorem Ordered.follow {tab : Tab} (ho : Ordered o) (hfollows : (o.tabs t).Follows tab)
    (htabs : o'.tabs = Function.update o.tabs t tab) (hstarted : o'.started = o.started)
    (hwire : ∀ r t', o'.wire.get r = some t' → t' ≠ t → o.wire.get r = some t')
    (hwired : ∀ r, o'.wire.get r = some t → ∃ rotation, tab.refreshInFlight = some rotation ∧
      rotation.id = r ∧ rotation.phase = .sent) : Ordered o' := by
  refine ho.of_tab htabs ?_ hwire hwired ?_ ?_
  · intro r t' hr
    rw [hstarted]
    exact hr
  · intro rotation' hflight
    obtain ⟨rotation, hrotation, hid⟩ := hfollows.rotation rotation' hflight
    rw [hstarted, ← hid]
    exact ho.drawn t rotation hrotation
  · intro k awaited hphase
    rw [hfollows.transitions] at hphase
    obtain ⟨hactive, hawaited⟩ := ho.draining t k awaited hphase
    refine ⟨hfollows.active.trans hactive, fun rotation' hflight => ?_⟩
    obtain ⟨rotation, hrotation, hid⟩ := hfollows.rotation rotation' hflight
    rw [← hid]
    exact hawaited rotation hrotation

/-- A rotation whose request is not sent has no response to come. -/
theorem Ordered.no_wire (ho : Ordered o) {rotation : Rotation}
    (hflight : (o.tabs t).refreshInFlight = some rotation) (hphase : rotation.phase ≠ .sent)
    (r : RotationId) : o.wire.get r ≠ some t := by
  intro hr
  obtain ⟨rotation', hflight', _, hsent⟩ := ho.wired r t hr
  obtain rfl := Option.some.inj (hflight.symm.trans hflight')
  exact hphase hsent

/-- A response, whatever it says, takes the request of its rotation off the wire. -/
theorem Ordered.answer (ho : Ordered o) {rotation : Rotation}
    (hflight : (o.tabs t).refreshInFlight = some rotation)
    (htabs : o'.tabs = Function.update o.tabs t ((o.tabs t).advance rotation .answered))
    (hstarted : o'.started = o.started) (hwire : o'.wire = o.wire.remove rotation.id) :
    Ordered o' := by
  refine ho.follow (Tab.follows_advance .answered hflight) htabs hstarted (fun r t' hr _ => ?_)
    fun r hr => ?_
  · rw [hwire] at hr
    exact Table.get_of_remove hr
  · rw [hwire] at hr
    obtain ⟨rotation', hflight', hid, _⟩ := ho.wired r t (Table.get_of_remove hr)
    obtain rfl := Option.some.inj (hflight.symm.trans hflight')
    rw [Table.get_remove, if_pos hid.symm] at hr
    cases hr

/-- A transition that does not wait, or waits no more. -/
theorem Ordered.putTransition (ho : Ordered o) {k : TransitionId} {phase : TransitionPhase}
    (hphase : ∀ awaited, TransitionPhase.draining awaited ≠ phase)
    (htabs : o'.tabs = Function.update o.tabs t ((o.tabs t).putTransition k phase))
    (hstarted : o'.started = o.started) (hwire : o'.wire = o.wire) : Ordered o' := by
  refine ho.of_tab htabs (fun r t' hr => ?_) (fun r t' hr _ => ?_) (fun r hr => ?_)
    (fun rotation hflight => ?_) ?_
  · rw [hstarted]
    exact hr
  · rw [hwire] at hr
    exact hr
  · rw [hwire] at hr
    exact ho.wired r t hr
  · rw [hstarted]
    exact ho.drawn t rotation hflight
  · intro k' awaited hdraining
    rcases Table.get_put_eq_some hdraining with ⟨_, heq⟩ | ⟨_, hold⟩
    · exact absurd heq (hphase awaited)
    · exact ho.draining t k' awaited hold

theorem Ordered.step (ho : Ordered o) (hstep : OriginStep o e o') (hserial : Serialized o e) :
    Ordered o' := by
  cases hstep with
  | @refreshAccessToken t r hnew =>
    have hstarted : ∀ r' t', o.started.get r' = some t' →
        (o.started.put r t).get r' = some t' := by
      intro r' t' hr'
      refine (Table.get_put_of_ne _ _ ?_).trans hr'
      rintro rfl
      rw [hnew] at hr'
      cases hr'
    refine ho.of_tab rfl hstarted (fun _ _ h _ => h) ?_ ?_ ?_
    · intro r' hr'
      obtain ⟨rotation, hflight, hid, hsent⟩ := ho.wired r' t hr'
      refine ⟨rotation, ?_, hid, hsent⟩
      unfold Tab.refreshAccessToken
      rw [hflight]
      split <;> exact hflight
    · intro rotation hflight
      unfold Tab.refreshAccessToken at hflight
      split at hflight
      · exact hstarted _ _ (ho.drawn t rotation hflight)
      · split at hflight
        · obtain rfl := Option.some.inj hflight
          exact Table.get_put_self _ _ _
        · exact hstarted _ _ (ho.drawn t rotation hflight)
    · intro k awaited hphase
      unfold Tab.refreshAccessToken at hphase ⊢
      split at hphase
      next hactive =>
        rw [if_pos hactive]
        exact ho.draining t k awaited hphase
      next hidle =>
        -- No transition waits in a tab whose flag is down.
        refine absurd (ho.draining t k awaited ?_).1 hidle
        split at hphase <;> exact hphase
  | takeLock hflight hphase =>
    refine ho.follow (Tab.follows_adoptOrRotate hflight) rfl rfl (fun _ _ h _ => h) fun r hr => ?_
    exact absurd hr (ho.no_wire hflight (by rw [hphase]; decide) r)
  | withoutLock hflight hphase =>
    refine ho.follow (Tab.follows_adoptOrRotate hflight) rfl rfl (fun _ _ h _ => h) fun r hr => ?_
    exact absurd hr (ho.no_wire hflight (by rw [hphase]; decide) r)
  | giveUp hflight hphase =>
    refine ho.follow (Tab.follows_settle _) rfl rfl (fun _ _ h _ => h) fun r hr => ?_
    exact absurd hr (ho.no_wire hflight (by rw [hphase]; decide) r)
  | withoutRequest hflight hphase =>
    refine ho.follow (Tab.follows_settle _) rfl rfl (fun _ _ h _ => h) fun r hr => ?_
    exact absurd hr (ho.no_wire hflight (by rw [hphase]; decide) r)
  | @postRefresh t rotation hflight hphase =>
    have hnone := ho.no_wire hflight (by rw [hphase]; decide)
    refine ho.follow (Tab.follows_advance .sent hflight) rfl rfl ?_ ?_
    · intro r t' hr hne
      rcases Table.get_put_eq_some hr with ⟨_, rfl⟩ | ⟨_, hold⟩
      · exact absurd rfl hne
      · exact hold
    · intro r hr
      rcases Table.get_put_eq_some hr with ⟨rfl, _⟩ | ⟨_, hold⟩
      · exact ⟨_, rfl, rfl, rfl⟩
      · exact absurd hold (hnone r)
  | refreshResponse hflight => exact ho.answer hflight rfl rfl rfl
  | refreshFailed hflight => exact ho.answer hflight rfl rfl rfl
  | settle hflight hphase =>
    refine ho.follow (Tab.follows_settle _) rfl rfl (fun _ _ h _ => h) fun r hr => ?_
    exact absurd hr (ho.no_wire hflight (by rw [hphase]; decide) r)
  | @beginAuthTransition t k hnew =>
    refine ho.of_tab rfl (fun _ _ h => h) (fun _ _ h _ => h) (fun r hr => ho.wired r t hr)
      (fun rotation hflight => ho.drawn t rotation hflight) ?_
    intro k' awaited hphase
    refine ⟨rfl, fun rotation hflight => ?_⟩
    rcases Table.get_put_eq_some hphase with ⟨_, heq⟩ | ⟨_, hold⟩
    · obtain rfl := TransitionPhase.draining.inj heq
      change (o.tabs t).refreshInFlight = some rotation at hflight
      rw [hflight]
      rfl
    · exact (ho.draining t k' awaited hold).2 rotation hflight
  | @postTransition t k awaited hphase =>
    exact ho.putTransition (fun _ heq => (by cases heq)) rfl rfl rfl
  | @transitionResponse t k hphase =>
    exact ho.putTransition (fun _ heq => (by cases heq)) rfl rfl rfl
  | @transitionFailed t k hphase =>
    exact ho.putTransition (fun _ heq => (by cases heq)) rfl rfl rfl
  | @endAuthTransition t k hphase =>
    refine ho.of_tab rfl (fun _ _ h => h) (fun _ _ h _ => h) (fun r hr => ho.wired r t hr)
      (fun rotation hflight => ho.drawn t rotation hflight) ?_
    intro k' awaited hdraining
    rcases Table.get_put_eq_some hdraining with ⟨_, heq⟩ | ⟨hne, hold⟩
    · cases heq
    · exact absurd hold (hserial k' awaited hne)

end Order

end CampusQuest.AccessToken
