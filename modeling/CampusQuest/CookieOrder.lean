import CampusQuest.AccessToken

/-!
The order of the cookie writers. A tab drains its own rotation before a login or a logout goes
out, and the flag of the tab keeps new ones away. Nothing holds the rotations of the other tabs
back, so the order needs that none of them has a request under way.
-/

namespace CampusQuest.AccessToken

open Tables Runs

section Posted

variable {o o' : Origin} {e : Event} {t t' : TabId} {r : RotationId} {k : TransitionId}

structure Posted (r : RotationId) (t : TabId) (o : Origin) : Prop where
  drawn : o.started.get r = some t
  phase : ∀ rotation, (o.tabs t).refreshInFlight = some rotation → rotation.id = r →
    rotation.phase = .sent ∨ rotation.phase = .answered

theorem Posted.of_tab {tab : Tab} (h : Posted r t o)
    (htabs : o'.tabs = Function.update o.tabs t' tab)
    (hstarted : o'.started.get r = some t)
    (htab : t = t' → ∀ rotation, tab.refreshInFlight = some rotation → rotation.id = r →
      rotation.phase = .sent ∨ rotation.phase = .answered) : Posted r t o' := by
  refine ⟨hstarted, fun rotation hflight hid => ?_⟩
  rw [htabs] at hflight
  by_cases ht : t = t'
  · subst ht
    rw [Function.update_self] at hflight
    exact htab rfl rotation hflight hid
  · rw [Function.update_of_ne ht] at hflight
    exact h.phase rotation hflight hid

theorem Posted.same {tab : Tab} (h : Posted r t o)
    (htabs : o'.tabs = Function.update o.tabs t' tab) (hstarted : o'.started.get r = some t)
    (hflight : tab.refreshInFlight = (o.tabs t').refreshInFlight) : Posted r t o' := by
  refine h.of_tab htabs hstarted ?_
  rintro rfl rotation hrotation hid
  rw [hflight] at hrotation
  exact h.phase rotation hrotation hid

theorem Posted.id_ne (h : Posted r t o) {rotation : Rotation}
    (hflight : (o.tabs t).refreshInFlight = some rotation)
    (hphase : rotation.phase = .waiting ∨ rotation.phase = .deciding) : rotation.id ≠ r := by
  intro hid
  rcases h.phase rotation hflight hid with hsent | hanswered
  · rw [hsent] at hphase
    rcases hphase with heq | heq <;> cases heq
  · rw [hanswered] at hphase
    rcases hphase with heq | heq <;> cases heq

theorem adoptOrRotate_id {tab : Tab} {rotation rotation' : Rotation}
    (h : (tab.adoptOrRotate rotation).refreshInFlight = some rotation') :
    rotation'.id = rotation.id := by
  unfold Tab.adoptOrRotate at h
  split at h
  · obtain rfl := Option.some.inj h
    rfl
  · cases h

theorem Posted.step (h : Posted r t o) (hstep : OriginStep o e o') : Posted r t o' := by
  cases hstep with
  | @refreshAccessToken t' r' hnew =>
    have hne : r ≠ r' := by
      rintro rfl
      have hdrawn := h.drawn
      rw [hnew] at hdrawn
      cases hdrawn
    refine h.of_tab rfl ((Table.get_put_of_ne _ _ hne).trans h.drawn) ?_
    rintro rfl rotation hflight hid
    unfold Tab.refreshAccessToken at hflight
    split at hflight
    · exact h.phase rotation hflight hid
    · split at hflight
      · obtain rfl := Option.some.inj hflight
        exact absurd hid.symm hne
      · exact h.phase rotation hflight hid
  | takeLock hflight hphase =>
    refine h.of_tab rfl h.drawn ?_
    rintro rfl rotation' hflight' hid
    exact absurd ((adoptOrRotate_id hflight').symm.trans hid) (h.id_ne hflight (.inl hphase))
  | withoutLock hflight hphase =>
    refine h.of_tab rfl h.drawn ?_
    rintro rfl rotation' hflight' hid
    exact absurd ((adoptOrRotate_id hflight').symm.trans hid) (h.id_ne hflight (.inl hphase))
  | giveUp => exact h.of_tab rfl h.drawn fun _ _ hflight _ => (by cases hflight)
  | withoutRequest => exact h.of_tab rfl h.drawn fun _ _ hflight _ => (by cases hflight)
  | postRefresh =>
    refine h.of_tab rfl h.drawn fun _ rotation' hflight' _ => .inl ?_
    obtain rfl := Option.some.inj hflight'
    rfl
  | refreshResponse =>
    refine h.of_tab rfl h.drawn fun _ rotation' hflight' _ => .inr ?_
    obtain rfl := Option.some.inj hflight'
    rfl
  | refreshFailed =>
    refine h.of_tab rfl h.drawn fun _ rotation' hflight' _ => .inr ?_
    obtain rfl := Option.some.inj hflight'
    rfl
  | settle => exact h.of_tab rfl h.drawn fun _ _ hflight _ => (by cases hflight)
  | beginAuthTransition => exact h.same rfl h.drawn rfl
  | postTransition => exact h.same rfl h.drawn rfl
  | transitionResponse => exact h.same rfl h.drawn rfl
  | transitionFailed => exact h.same rfl h.drawn rfl
  | endAuthTransition => exact h.same rfl h.drawn rfl

/-- The request of a rotation goes out once. -/
theorem Posted.wire_none (ho : Ordered o) (h : Posted r t o) (hnone : o.wire.get r = none)
    (hstep : OriginStep o e o') : o'.wire.get r = none := by
  have hremove : ∀ r', (o.wire.remove r').get r = none := by
    intro r'
    rw [Table.get_remove]
    split
    · rfl
    · exact hnone
  cases hstep with
  | @postRefresh t' rotation hflight hphase =>
    refine (Table.get_put_of_ne _ _ ?_).trans hnone
    rintro rfl
    have hdrawn := ho.drawn t' rotation hflight
    obtain rfl := Option.some.inj (h.drawn.symm.trans hdrawn)
    exact h.id_ne hflight (.inr hphase) rfl
  | refreshResponse => exact hremove _
  | refreshFailed => exact hremove _
  | _ => exact hnone

theorem posted_postRefresh (ho : Ordered o) (hstep : OriginStep o (.postRefresh t r) o') :
    Posted r t o' := by
  cases hstep with
  | postRefresh hflight hphase =>
    refine ⟨ho.drawn t _ hflight, fun rotation' hflight' _ => .inl ?_⟩
    replace hflight' := (congrArg Tab.refreshInFlight (Function.update_self ..)).symm.trans hflight'
    obtain rfl := Option.some.inj hflight'
    rfl

/-- When a transition sends its request no refresh request is without a response. -/
theorem wire_drained (ho : Ordered o) (hstep : OriginStep o (.postTransition t k) o')
    (hserial : Serialized o (.postTransition t k)) (r : RotationId) : o'.wire.get r = none := by
  cases hstep with
  | @postTransition _ _ awaited hphase hdrained =>
    change o.wire.get r = none
    cases hr : o.wire.get r with
    | none => rfl
    | some t' =>
      obtain rfl : t' = t := hserial r t' hr
      obtain ⟨rotation, hflight, _⟩ := ho.wired r t' hr
      exact absurd ((ho.draining t' k awaited hphase).2 rotation hflight) (hdrained rotation hflight)

end Posted

section Order

variable {o o' : Origin} {t t' : TabId} {r : RotationId} {k : TransitionId}
  {l l' : List (Origin × Event × Origin)}

theorem ordered_of_reach (h : (originSystem.guarded Serialized).Reach o) : Ordered o := by
  induction h with
  | init hinit =>
    obtain rfl : _ = Origin.loaded := hinit
    constructor
    · intro r t hr
      cases hr
    · intro t rotation hflight
      cases hflight
    · intro t k awaited hphase
      cases hphase
  | step _ hstep ih => exact ih.step hstep.1 hstep.2

theorem posted_run (h : Posted r t o) (hrun : (originSystem.guarded Serialized).Run o l o') :
    Posted r t o' := by
  induction hrun with
  | nil => exact h
  | snoc _ hstep ih => exact ih.step hstep.1

/-- In every run of the tabs in which a transition goes out while no other tab has a refresh
request under way, and in which it does not end while another one of its tab waits, no response
of a refresh that was sent before the transition is applied behind it. -/
theorem transition_last_writer {o₁ o₁' o₂ o₂' o₃ o₃' : Origin} {t t' t'' : TabId}
    {r : RotationId} {k : TransitionId} {l l' : List (Origin × Event × Origin)}
    (hreach : (originSystem.guarded Serialized).Reach o₁)
    (hpost : (originSystem.guarded Serialized).step o₁ (.postRefresh t r) o₁')
    (hbetween : (originSystem.guarded Serialized).Run o₁' l o₂)
    (hsend : (originSystem.guarded Serialized).step o₂ (.postTransition t' k) o₂')
    (hafter : (originSystem.guarded Serialized).Run o₂' l' o₃) :
    ¬ (originSystem.guarded Serialized).step o₃ (.refreshResponse t'' r) o₃' := by
  have hposted : Posted r t o₂ :=
    posted_run (posted_postRefresh (ordered_of_reach hreach) hpost.1) hbetween
  have hreach₂ := hbetween.reach (System.Reach.step hreach hpost)
  have hreach₂' := System.Reach.step hreach₂ hsend
  -- The wire is empty when the transition goes out, and the rotation is not sent again.
  have hgone : Posted r t o₃ ∧ o₃.wire.get r = none := by
    refine hafter.keeps (P := fun o => Posted r t o ∧ o.wire.get r = none) ?_ hreach₂' ?_
    · rintro o e o' ho ⟨hposted, hnone⟩ hstep
      exact ⟨hposted.step hstep.1, hposted.wire_none (ordered_of_reach ho) hnone hstep.1⟩
    · exact ⟨hposted.step hsend.1, wire_drained (ordered_of_reach hreach₂) hsend.1 hsend.2 r⟩
  rintro ⟨hstep, _⟩
  cases hstep with
  | refreshResponse _ hwire =>
    rw [hgone.2] at hwire
    cases hwire

end Order

section Scene

def sceneStarted : Origin :=
  { Origin.loaded.setTab 0 (Tab.loaded.refreshAccessToken 0) with
    started := Table.empty.put 0 0 }

def sceneLocked : Origin :=
  { sceneStarted.setTab 0 ((sceneStarted.tabs 0).adoptOrRotate ⟨0, 0, .waiting⟩) with
    lock := some 0 }

def sceneSent : Origin :=
  { sceneLocked.setTab 0 ((sceneLocked.tabs 0).advance ⟨0, 0, .deciding⟩ .sent) with
    wire := Table.empty.put 0 0 }

def sceneBegun (t : TabId) : Origin :=
  sceneSent.setTab t ((sceneSent.tabs t).beginAuthTransition 0)

def sceneAnswered (o : Origin) : Origin :=
  { o.setTab 0 ((o.tabs 0).advance ⟨0, 0, .sent⟩ .answered) with
    wire := o.wire.remove 0
    cookies := some (.refresh 0) }

def sceneLogin (o : Origin) (t : TabId) : Origin := o.setTab t ((o.tabs t).putTransition 0 .sent)

/-- The login of the tab that rotates, which waits for the response. -/
def sceneSettled : Origin :=
  ((sceneAnswered (sceneBegun 0)).setTab 0 ((sceneAnswered (sceneBegun 0)).tabs 0).settle).release 0

theorem reach_locked (S : System Origin Event) (hinit : ∀ o, o = Origin.loaded → S.init o)
    (hstep : ∀ o e o', OriginStep o e o' → Serialized o e → S.step o e o') :
    S.Reach sceneLocked := by
  refine .step (.step (.init (hinit _ rfl)) (hstep Origin.loaded (.refreshAccessToken 0 0)
    sceneStarted (.refreshAccessToken rfl) trivial)) (hstep sceneStarted (.takeLock 0) _ ?_ trivial)
  exact @OriginStep.takeLock sceneStarted 0 ⟨0, 0, .waiting⟩ rfl rfl rfl

theorem step_sent : OriginStep sceneLocked (.postRefresh 0 0) sceneSent :=
  @OriginStep.postRefresh sceneLocked 0 ⟨0, 0, .deciding⟩ rfl rfl

end Scene

/-- A rotation of one tab is sent and another tab logs in. The login has nothing to wait for in
its own tab, and the response of the rotation is applied behind it. -/
theorem sibling_refresh_behind_login :
    ¬ ∀ (o₁ o₁' o₂ o₂' o₃ o₃' : Origin) (t t' t'' : TabId) (r : RotationId) (k : TransitionId)
      (l l' : List (Origin × Event × Origin)), originSystem.Reach o₁ →
      originSystem.step o₁ (.postRefresh t r) o₁' → originSystem.Run o₁' l o₂ →
      originSystem.step o₂ (.postTransition t' k) o₂' → originSystem.Run o₂' l' o₃ →
      ¬ originSystem.step o₃ (.refreshResponse t'' r) o₃' := by
  intro hall
  have hbegin : originSystem.step sceneSent (.beginAuthTransition 1 0) (sceneBegun 1) :=
    OriginStep.beginAuthTransition rfl
  refine hall sceneLocked sceneSent (sceneBegun 1) (sceneLogin (sceneBegun 1) 1)
    (sceneLogin (sceneBegun 1) 1) (sceneAnswered (sceneLogin (sceneBegun 1) 1)) 0 1 0 0 0 _ _
    (reach_locked originSystem (fun _ h => h) (fun _ _ _ h _ => h)) step_sent
    (.snoc (.nil _) hbegin) ?_ (.nil _) ?_
  · exact @OriginStep.postTransition (sceneBegun 1) 1 0 none rfl fun _ h => (by cases h)
  · exact @OriginStep.refreshResponse (sceneLogin (sceneBegun 1) 1) 0 ⟨0, 0, .sent⟩ rfl rfl

/-- A login of the tab that rotates waits for the response. -/
theorem own_refresh_before_login :
    ¬ (originSystem.guarded Serialized).step (sceneLogin sceneSettled 0) (.refreshResponse 0 0)
      (sceneAnswered (sceneLogin sceneSettled 0)) := by
  have hbegin : OriginStep sceneSent (.beginAuthTransition 0 0) (sceneBegun 0) :=
    OriginStep.beginAuthTransition rfl
  have hresponse : OriginStep (sceneBegun 0) (.refreshResponse 0 0)
      (sceneAnswered (sceneBegun 0)) :=
    @OriginStep.refreshResponse (sceneBegun 0) 0 ⟨0, 0, .sent⟩ rfl rfl
  have hsettle : OriginStep (sceneAnswered (sceneBegun 0)) (.settle 0) sceneSettled :=
    @OriginStep.settle (sceneAnswered (sceneBegun 0)) 0 ⟨0, 0, .answered⟩ rfl rfl
  have hlogin : OriginStep sceneSettled (.postTransition 0 0) (sceneLogin sceneSettled 0) :=
    @OriginStep.postTransition sceneSettled 0 0 (some 0) rfl fun _ h => (by cases h)
  exact transition_last_writer
    (reach_locked (originSystem.guarded Serialized) (fun _ h => h) (fun _ _ _ h hs => ⟨h, hs⟩))
    ⟨step_sent, trivial⟩
    (.snoc (.snoc (.snoc (.nil _) ⟨hbegin, trivial⟩) ⟨hresponse, trivial⟩) ⟨hsettle, trivial⟩)
    ⟨hlogin, fun _ _ h => (by cases h)⟩ (.nil _)

end CampusQuest.AccessToken
