import CampusQuest.ContextReset

/-!
What the tabs hold once a login is announced. From the response of a login to its reset the
context is open; behind it a tab either has the reset still to come or holds nothing of another
context.
-/

namespace CampusQuest.ContextReset

open Tables Runs

section Fenced

variable {o o' : Origin} {e : Event} {t : TabId}

/-- The response that opened the context is there, and its reset is not announced yet. -/
def Origin.Open (o : Origin) : Prop :=
  ∃ t k outcome, (o.tabs t).transitions.get k = some (.answered outcome) ∧
    outcome.opened = some o.context

/-- A tab has the reset still to come, or holds nothing of another context. -/
def Origin.Settled (o : Origin) (t : TabId) : Prop :=
  0 < o.resets t ∨ (o.tabs t).Within o.context

def Origin.Marked (o : Origin) : Prop := ∀ m, o.marker = some m → m.context = o.context

structure Fenced (o : Origin) : Prop where
  session : ∀ c, o.session = some c → c = o.context
  closed : o.Open ∨ (∀ t, o.Settled t) ∧ o.Marked

theorem Fenced.of_tab {tab : Tab} (ho : Fenced o)
    (htabs : o'.tabs = Function.update o.tabs t tab) (hcontext : o'.context = o.context)
    (hsession : ∀ c, o'.session = some c → c = o.context)
    (hopen : ∀ k outcome, (o.tabs t).transitions.get k = some (.answered outcome) →
      outcome.opened = some o.context → tab.transitions.get k = some (.answered outcome))
    (hresets : ∀ t', t' ≠ t → 0 < o.resets t' → 0 < o'.resets t')
    (htab : o.Settled t → 0 < o'.resets t ∨ tab.Within o.context)
    (hmarked : o.Marked → ∀ m, o'.marker = some m → m.context = o.context) : Fenced o' := by
  constructor
  · rw [hcontext]
    exact hsession
  rcases ho.closed with ⟨t', k, outcome, hk, hopened⟩ | ⟨hsettled, hmarker⟩
  · refine .inl ⟨t', k, outcome, ?_, by rw [hcontext]; exact hopened⟩
    rw [htabs]
    by_cases ht : t' = t
    · subst ht
      rw [Function.update_self]
      exact hopen k outcome hk hopened
    · rw [Function.update_of_ne ht]
      exact hk
  · refine .inr ⟨fun t' => ?_, fun m hm => by rw [hcontext]; exact hmarked hmarker m hm⟩
    unfold Origin.Settled
    rw [htabs, hcontext]
    by_cases ht : t' = t
    · subst ht
      rw [Function.update_self]
      exact htab (hsettled t')
    · rw [Function.update_of_ne ht]
      exact (hsettled t').imp (hresets t' ht) id

/-- A step of a tab that changes neither the messages nor its transitions. -/
theorem Fenced.setTab {tab : Tab} (ho : Fenced o)
    (htransitions : tab.transitions = (o.tabs t).transitions)
    (hwithin : (o.tabs t).Within o.context → tab.Within o.context) : Fenced (o.setTab t tab) := by
  refine ho.of_tab rfl rfl ho.session (fun k outcome hk _ => ?_) (fun _ _ h => h)
    (fun h => h.imp id hwithin) (fun h => h)
  rw [htransitions]
  exact hk

theorem Fenced.putTransition (ho : Fenced o) {tab : Tab} {k : TransitionId}
    {phase : TransitionPhase} (htransitions : tab.transitions = (o.tabs t).transitions.put k phase)
    (hold : ∀ outcome, (o.tabs t).transitions.get k = some (.answered outcome) →
      outcome.opened ≠ some o.context)
    (hwithin : (o.tabs t).Within o.context → tab.Within o.context) : Fenced (o.setTab t tab) := by
  refine ho.of_tab rfl rfl ho.session (fun k' outcome hk' hopened => ?_) (fun _ _ h => h)
    (fun h => h.imp id hwithin) (fun h => h)
  rw [htransitions]
  refine (Table.get_put_of_ne _ _ ?_).trans hk'
  rintro rfl
  exact hold outcome hk' hopened

theorem refreshAccessToken_transitions (tab : Tab) (r : RotationId) :
    (tab.refreshAccessToken r).transitions = tab.transitions := by
  unfold Tab.refreshAccessToken
  split
  · rfl
  · split <;> rfl

theorem Tab.Within.refreshAccessToken {tab : Tab} {c : ContextId} (h : tab.Within c)
    (r : RotationId) : (tab.refreshAccessToken r).Within c := by
  unfold Tab.refreshAccessToken
  split
  · exact h
  · split
    · exact ⟨h.token, h.held, h.observed⟩
    · exact h

theorem Tab.Within.candidate {tab : Tab} {c : ContextId} (h : tab.Within c)
    {m : AdoptionMessage} (hm : tab.heldMint = some m ∨ tab.lastAdoption = some m) :
    m.token.context = c :=
  hm.elim (h.held m) (h.observed m)

theorem Tab.within_storeMint (tab : Tab) (m : AdoptionMessage) :
    (tab.storeMint m).Within m.token.context := by
  constructor
  · intro b hb
    obtain rfl := Option.some.inj hb
    rfl
  · intro m' hm'
    obtain rfl := Option.some.inj hm'
    rfl
  · intro m' hm'
    obtain rfl := Option.some.inj hm'
    rfl

theorem Tab.within_onContextReset (tab : Tab) (c : ContextId) : tab.onContextReset.Within c :=
  ⟨fun _ h => (by cases h), fun _ h => (by cases h), fun _ h => (by cases h)⟩

/-- What a tab holds when its own transition ends. -/
theorem Tab.within_record {tab : Tab} {k : TransitionId} {outcome : Outcome} {c : ContextId}
    (hopened : outcome.opened = some c) : ((tab.endAuthTransition k).record outcome).Within c := by
  cases outcome with
  | loginFailed => cases hopened
  | logoutFailed => cases hopened
  | loggedIn token =>
    obtain rfl := Option.some.inj hopened
    refine ⟨fun b hb => ?_, fun _ h => (by cases h), fun _ h => (by cases h)⟩
    obtain rfl := Option.some.inj hb
    rfl
  | loggedOut => exact ⟨fun _ h => (by cases h), fun _ h => (by cases h), fun _ h => (by cases h)⟩

theorem record_transitions (tab : Tab) (outcome : Outcome) :
    (tab.record outcome).transitions = tab.transitions := by
  cases outcome <;> rfl

theorem Fenced.refreshResponse (ho : Fenced o) {rotation : Rotation} {csrf : Csrf}
    {mint : AdoptionMessage} (hmint : mint.token.context = o.context) :
    Fenced (o.refreshResponse t rotation o.context csrf mint) := by
  have hsession : ∀ c, some o.context = some c → c = o.context := by
    intro c hc
    exact (Option.some.inj hc).symm
  unfold Origin.refreshResponse
  split
  · refine ho.of_tab rfl rfl hsession (fun _ _ hk _ => hk) (fun _ _ h => h) (fun _ => .inr ?_) ?_
    · rw [← hmint]
      exact Tab.within_storeMint _ _
    · intro _ m hm
      obtain rfl := Option.some.inj hm
      exact hmint
  · exact ho.of_tab rfl rfl hsession (fun _ _ hk _ => hk) (fun _ _ h => h)
      (fun h => h.imp id fun h => ⟨h.token, h.held, h.observed⟩) (fun h => h)

/-- The reset of the transition that opened the context. -/
theorem fenced_broadcast {tab : Tab} (hsession : ∀ c, o.session = some c → c = o.context)
    (htab : tab.Within o.context) : Fenced ((o.setTab t tab).broadcastContextReset t) := by
  refine ⟨hsession, .inr ⟨fun t' => ?_, fun _ hm => (by cases hm)⟩⟩
  by_cases ht : t' = t
  · subst ht
    refine .inr ?_
    change (Function.update o.tabs t' tab t').Within o.context
    rw [Function.update_self]
    exact htab
  · refine .inl ?_
    change 0 < if t' = t then o.resets t' else o.resets t' + 1
    rw [if_neg ht]
    exact Nat.succ_pos _

theorem fenced_open {k : TransitionId} {outcome : Outcome} {session : Option ContextId}
    {csrf : Option Csrf} (hopened : outcome.opened = some (o.context + 1))
    (hsession : ∀ c, session = some c → c = o.context + 1) :
    Fenced ((o.setTab t ((o.tabs t).putTransition k (.answered outcome))).openContext
      session csrf) := by
  refine ⟨hsession, .inl ⟨t, k, outcome, ?_, hopened⟩⟩
  change (Function.update o.tabs t _ t).transitions.get k = _
  rw [Function.update_self]
  exact Table.get_put_self _ _ _

theorem Fenced.step (ho : Fenced o) (hstep : OriginStep o e o') (hfencing : Fencing o e) :
    Fenced o' := by
  cases hstep with
  | refreshAccessToken =>
    exact ho.setTab (refreshAccessToken_transitions _ _) fun h => h.refreshAccessToken _
  | giveUp => exact ho.setTab rfl fun h => ⟨h.token, h.held, h.observed⟩
  | adopt _ _ _ _ hcandidate =>
    refine ho.setTab rfl fun h => ⟨fun b hb => ?_, fun m' hm' => ?_, h.observed⟩
    · obtain rfl := Option.some.inj hb
      exact h.candidate hcandidate
    · obtain rfl := Option.some.inj hm'
      exact h.candidate hcandidate
  | postRefresh =>
    exact ho.of_tab rfl rfl ho.session (fun _ _ hk _ => hk) (fun _ _ h => h)
      (fun h => h.imp id fun h => ⟨h.token, h.held, h.observed⟩) fun _ _ hm => (by cases hm)
  | refreshResponse _ _ hmint =>
    obtain rfl : _ = o.context := hfencing
    exact ho.refreshResponse hmint
  | @refreshFailed t rotation =>
    refine ho.setTab rfl fun h => ⟨fun b hb => h.token b ?_, h.held, h.observed⟩
    change (if _ then none else (o.tabs t).accessToken) = some b at hb
    split at hb
    · cases hb
    · exact hb
  | answerProbe => exact ⟨ho.session, ho.closed⟩
  | @deliverMint t m =>
    refine ho.of_tab rfl rfl ho.session (fun _ _ hk _ => hk) (fun _ _ h => h) ?_ (fun h => h)
    intro hsettled
    rcases hfencing with hpending | hcontext
    · exact .inl hpending
    · refine hsettled.imp id fun h => ⟨h.token, h.held, fun m' hm' => ?_⟩
      obtain rfl := Option.some.inj hm'
      exact hcontext
  | @deliverReset t =>
    refine ho.of_tab rfl rfl ho.session (fun _ _ hk _ => hk) (fun t' ht h => ?_)
      (fun _ => .inr (Tab.within_onContextReset _ _)) (fun h => h)
    change 0 < Function.update o.resets t _ t'
    rw [Function.update_of_ne ht]
    exact h
  | beginAuthTransition hnew =>
    refine ho.putTransition rfl (fun outcome hk => ?_) fun h => ⟨h.token, h.held, h.observed⟩
    rw [hnew] at hk
    cases hk
  | postTransition hphase =>
    refine ho.putTransition rfl (fun outcome hk => ?_) fun h => ⟨h.token, h.held, h.observed⟩
    rw [hphase] at hk
    cases hk
  | loginResponse => exact fenced_open rfl fun c hc => (Option.some.inj hc).symm
  | logoutResponse => exact fenced_open rfl fun c hc => (by cases hc)
  | transitionFailed hphase =>
    refine ho.putTransition rfl (fun outcome hk => ?_) fun h => ⟨h.token, h.held, h.observed⟩
    rw [hphase] at hk
    cases hk
  | @endAuthTransition t k outcome hphase =>
    cases hopened : outcome.opened with
    | some c =>
      obtain rfl := hfencing.1 c hopened
      exact fenced_broadcast ho.session (Tab.within_record hopened)
    | none =>
      refine ho.of_tab rfl rfl ho.session (fun k' outcome' hk' hopened' => ?_)
        (fun t' ht h => ?_) (fun h => h.imp (fun h => ?_) fun h => ?_) fun _ _ hm => (by cases hm)
      · rw [record_transitions]
        refine (Table.get_put_of_ne _ _ ?_).trans hk'
        rintro rfl
        obtain rfl := TransitionPhase.answered.inj (Option.some.inj (hphase.symm.trans hk'))
        rw [hopened] at hopened'
        cases hopened'
      · change 0 < if t' = t then o.resets t' else o.resets t' + 1
        rw [if_neg ht]
        exact Nat.succ_pos _
      · change 0 < if t = t then o.resets t else o.resets t + 1
        rw [if_pos rfl]
        exact h
      · cases outcome with
        | loginFailed => exact ⟨h.token, fun _ hm => (by cases hm), fun _ hm => (by cases hm)⟩
        | logoutFailed =>
          exact ⟨fun _ hb => (by cases hb), fun _ hm => (by cases hm), fun _ hm => (by cases hm)⟩
        | loggedIn token => cases hopened
        | loggedOut context => cases hopened
  | adoptFullLogin => exact hfencing.elim

end Fenced

section Blocked

variable {o o' : Origin} {e : Event} {t : TabId}

theorem blocked_setTab {tab : Tab} (ho : ∀ t', (o.tabs t').Blocked) (htab : tab.Blocked)
    (t' : TabId) : (Function.update o.tabs t tab t').Blocked := by
  by_cases ht : t' = t
  · subst ht
    rw [Function.update_self]
    exact htab
  · rw [Function.update_of_ne ht]
    exact ho t'

theorem Tab.Blocked.same {tab tab' : Tab} (h : tab.Blocked)
    (htransitions : tab'.transitions = tab.transitions)
    (hactive : tab'.transitionActive = tab.transitionActive)
    (hflight : tab'.refreshInFlight = tab.refreshInFlight) : tab'.Blocked := by
  refine h.follow htransitions hactive fun rotation hrotation => ⟨rotation, ?_, rfl⟩
  rw [← hflight]
  exact hrotation

theorem blocked_step (ho : ∀ t, (o.tabs t).Blocked) (hstep : OriginStep o e o')
    (hfencing : Fencing o e) : ∀ t, (o'.tabs t).Blocked := by
  cases hstep with
  | refreshAccessToken => exact blocked_setTab ho ((ho _).refreshAccessToken _)
  | giveUp => exact blocked_setTab ho ((ho _).settled rfl rfl rfl)
  | adopt => exact blocked_setTab ho ((ho _).settled rfl rfl rfl)
  | postRefresh hflight =>
    refine blocked_setTab ho ((ho _).follow rfl rfl fun rotation' hrotation' => ⟨_, hflight, ?_⟩)
    obtain rfl := Option.some.inj hrotation'
    rfl
  | refreshResponse =>
    unfold Origin.refreshResponse
    split
    · exact blocked_setTab ho ((ho _).settled rfl rfl rfl)
    · exact blocked_setTab ho ((ho _).settled rfl rfl rfl)
  | refreshFailed => exact blocked_setTab ho ((ho _).settled rfl rfl rfl)
  | answerProbe => exact ho
  | deliverMint => exact blocked_setTab ho ((ho _).same rfl rfl rfl)
  | deliverReset => exact blocked_setTab ho ((ho _).same rfl rfl rfl)
  | beginAuthTransition => exact blocked_setTab ho (ho _).beginAuthTransition
  | postTransition hphase hdrained =>
    exact blocked_setTab ho ((ho _).putTransition (fun _ heq => (by cases heq))
      fun _ => (ho _).drained hphase hdrained)
  | loginResponse =>
    exact blocked_setTab ho ((ho _).putTransition (fun _ heq => (by cases heq))
      fun heq => (by cases heq))
  | logoutResponse =>
    exact blocked_setTab ho ((ho _).putTransition (fun _ heq => (by cases heq))
      fun heq => (by cases heq))
  | transitionFailed =>
    exact blocked_setTab ho ((ho _).putTransition (fun _ heq => (by cases heq))
      fun heq => (by cases heq))
  | endAuthTransition =>
    exact blocked_setTab ho (Tab.blocked_endAuthTransition _ hfencing.2)
  | adoptFullLogin => exact hfencing.elim

end Blocked

section Siblings

variable {o : Origin}

theorem fenced_of_reach (h : (originSystem.guarded Fencing).Reach o) : Fenced o := by
  induction h with
  | init hinit =>
    obtain ⟨csrf, rfl⟩ := hinit
    refine ⟨fun c hc => (Option.some.inj hc).symm, .inr ⟨fun t => .inr ?_, fun m hm => ?_⟩⟩
    · exact ⟨fun _ h => (by cases h), fun _ h => (by cases h), fun _ h => (by cases h)⟩
    · cases hm
  | step _ hstep ih => exact ih.step hstep.1 hstep.2

theorem blocked_of_reach (h : (originSystem.guarded Fencing).Reach o) :
    ∀ t, (o.tabs t).Blocked := by
  induction h with
  | init hinit =>
    obtain ⟨csrf, rfl⟩ := hinit
    intro t
    exact ⟨fun _ _ h => (by cases h), fun _ h => (by cases h)⟩
  | step _ hstep ih => exact blocked_step ih hstep.1 hstep.2

/-- In every run whose logins all walk the transition, and in which nothing of a closed context
comes behind the cookies or the reset of the next one, a login's request goes out when its tab has
no rotation and starts none. Once the login is announced, a tab that heard it holds, offers and
adopts no bearer of another context, and the marker is of no other one. -/
theorem login_fences_siblings (hreach : (originSystem.guarded Fencing).Reach o) :
    (∀ t k, (o.tabs t).transitions.get k = some .sent →
      (o.tabs t).refreshInFlight = none ∧ ∀ r, (o.tabs t).refreshAccessToken r = o.tabs t) ∧
    (¬ o.Open → o.Marked ∧ ∀ t, o.resets t = 0 → (o.tabs t).Within o.context ∧
      (∀ m o', OriginStep o (.answerProbe t m) o' → m.token.context = o.context) ∧
      ∀ m o', OriginStep o (.adopt t m) o' → m.token.context = o.context) := by
  constructor
  · intro t k hk
    obtain ⟨hactive, hflight⟩ := (blocked_of_reach hreach t).sent k hk
    exact ⟨hflight, fun r => if_pos hactive⟩
  · intro hopen
    obtain ⟨hsettled, hmarked⟩ := (fenced_of_reach hreach).closed.resolve_left hopen
    refine ⟨hmarked, fun t hresets => ?_⟩
    have hwithin : (o.tabs t).Within o.context := by
      refine (hsettled t).resolve_left ?_
      rw [hresets]
      exact lt_irrefl 0
    refine ⟨hwithin, fun m o' hstep => ?_, fun m o' hstep => ?_⟩
    · cases hstep with
      | answerProbe hheld => exact hwithin.held m hheld
    · cases hstep with
      | adopt _ _ _ _ hcandidate => exact hwithin.candidate hcandidate

end Siblings

section Scene

def sceneMint : AdoptionMessage := ⟨0, ⟨0, 0⟩, some 1⟩

def sceneStarted : Origin :=
  (Origin.loaded none).setTab 1 (((Origin.loaded none).tabs 1).refreshAccessToken 0)

def sceneSent : Origin :=
  { sceneStarted.setTab 1 ((sceneStarted.tabs 1).post ⟨0, 0, none⟩ sceneStarted.session) with
    marker := none }

def sceneStored : Origin := sceneSent.refreshResponse 1 ⟨0, 0, some (some 0)⟩ 0 1 sceneMint

def sceneHeld : Origin :=
  { sceneStored.setTab 1 { sceneStored.tabs 1 with lastAdoption := some sceneMint } with
    mints := Function.update sceneStored.mints 1 ((sceneStored.mints 1).erase sceneMint) }

def sceneSilent : Origin :=
  (sceneHeld.setTab 0 ((sceneHeld.tabs 0).record (.loggedIn ⟨1, 1⟩))).openContext (some 1) (some 2)

def sceneBegun : Origin := sceneHeld.setTab 0 ((sceneHeld.tabs 0).beginAuthTransition 0)

def scenePosted : Origin := sceneBegun.setTab 0 ((sceneBegun.tabs 0).putTransition 0 .sent)

def sceneAnswered : Origin :=
  (scenePosted.setTab 0 ((scenePosted.tabs 0).putTransition 0
    (.answered (.loggedIn ⟨1, 1⟩)))).openContext (some 1) (some 2)

def sceneAnnounced : Origin :=
  (sceneAnswered.setTab 0 (((sceneAnswered.tabs 0).endAuthTransition 0).record
    (.loggedIn ⟨1, 1⟩))).broadcastContextReset 0

def sceneHeard : Origin :=
  { sceneAnnounced.setTab 1 (sceneAnnounced.tabs 1).onContextReset with
    resets := Function.update sceneAnnounced.resets 1 (sceneAnnounced.resets 1 - 1) }

theorem reach_held (S : System Origin Event) (hinit : S.init (Origin.loaded none))
    (hstep : ∀ o e o', OriginStep o e o' → Fencing o e → S.step o e o') : S.Reach sceneHeld := by
  have hstarted : S.step (Origin.loaded none) (.refreshAccessToken 1 0) sceneStarted :=
    hstep _ _ _ .refreshAccessToken trivial
  have hsent : S.step sceneStarted (.postRefresh 1) sceneSent :=
    hstep _ _ _ (@OriginStep.postRefresh sceneStarted 1 ⟨0, 0, none⟩ rfl rfl) trivial
  have hstored : S.step sceneSent (.refreshResponse 1 0) sceneStored :=
    hstep _ _ _ (@OriginStep.refreshResponse sceneSent 1 ⟨0, 0, some (some 0)⟩ 0 1 sceneMint
      rfl rfl rfl) rfl
  have hheld : S.step sceneStored (.deliverMint 1 sceneMint) sceneHeld :=
    hstep _ _ _ (.deliverMint (List.mem_singleton_self _)) (.inr rfl)
  exact .step (.step (.step (.step (.init hinit) hstarted) hsent) hstored) hheld

theorem transitions_update {o o' : Origin} {t t' : TabId} {tab : Tab}
    (ho : (o.tabs t').transitions = .empty) (htabs : o'.tabs = Function.update o.tabs t tab)
    (htab : t' = t → tab.transitions = .empty) : (o'.tabs t').transitions = .empty := by
  rw [htabs]
  by_cases ht : t' = t
  · subst ht
    rw [Function.update_self]
    exact htab rfl
  · rw [Function.update_of_ne ht]
    exact ho

theorem sceneHeld_transitions (t : TabId) : (sceneHeld.tabs t).transitions = .empty := by
  have hstarted : (sceneStarted.tabs t).transitions = .empty :=
    transitions_update (o := Origin.loaded none) rfl rfl fun _ => rfl
  have hsent : (sceneSent.tabs t).transitions = .empty :=
    transitions_update hstarted rfl fun _ => rfl
  have hstored : (sceneStored.tabs t).transitions = .empty :=
    transitions_update hsent rfl fun _ => rfl
  exact transitions_update hstored rfl fun _ => rfl

theorem not_open_silent : ¬ sceneSilent.Open := by
  rintro ⟨t, k, outcome, hk, _⟩
  have hempty : (sceneSilent.tabs t).transitions = .empty :=
    transitions_update (sceneHeld_transitions t) rfl fun _ => rfl
  rw [hempty] at hk
  cases hk

theorem sceneAnswered_transitions {k : TransitionId} (hk : k ≠ 0) :
    (sceneAnswered.tabs 0).transitions.get k = none := by
  change (((Table.empty.put 0 _).put 0 _).put 0 _).get k = none
  rw [Table.get_put_of_ne _ _ hk, Table.get_put_of_ne _ _ hk, Table.get_put_of_ne _ _ hk]
  rfl

theorem not_open_heard : ¬ sceneHeard.Open := by
  rintro ⟨t, k, outcome, hk, _⟩
  by_cases ht : t = 0
  · subst ht
    change ((sceneAnswered.tabs 0).transitions.put 0 .ended).get k = _ at hk
    rcases Table.get_put_eq_some hk with ⟨_, heq⟩ | ⟨hne, hold⟩
    · cases heq
    · rw [sceneAnswered_transitions hne] at hold
      cases hold
  · have hbegun : (sceneBegun.tabs t).transitions = .empty :=
      transitions_update (sceneHeld_transitions t) rfl fun h => absurd h ht
    have hposted : (scenePosted.tabs t).transitions = .empty :=
      transitions_update hbegun rfl fun h => absurd h ht
    have hanswered : (sceneAnswered.tabs t).transitions = .empty :=
      transitions_update hposted rfl fun h => absurd h ht
    have hannounced : (sceneAnnounced.tabs t).transitions = .empty :=
      transitions_update hanswered rfl fun h => absurd h ht
    have hheard : (sceneHeard.tabs t).transitions = .empty :=
      transitions_update hannounced rfl fun _ => rfl
    rw [hheard] at hk
    cases hk

end Scene

/-- A login of one tab by its remembered device announces nothing, and a tab that has heard
everything goes on with its bearer. -/
theorem silent_login_keeps_bearer :
    ¬ ∀ o : Origin, originSystem.Reach o → ¬ o.Open → ∀ t, o.resets t = 0 → o.mints t = [] →
      (o.tabs t).Within o.context := by
  intro hall
  have hreach : originSystem.Reach sceneSilent := by
    refine .step (a := .adoptFullLogin 0 .fastLoginCookieOnly) (reach_held originSystem ⟨none, rfl⟩
      fun _ _ _ h _ => h) ?_
    exact @OriginStep.adoptFullLogin sceneHeld 0 .fastLoginCookieOnly 1 2 fun h => h
  have hwithin := hall sceneSilent hreach not_open_silent 1 rfl rfl
  have hcontext : (0 : ℕ) = 1 := hwithin.token ⟨0, 0⟩ rfl
  cases hcontext

/-- The same bearer is gone when the login walks the transition. -/
theorem sibling_fenced : (sceneHeard.tabs 1).Within sceneHeard.context := by
  have hbegun : OriginStep sceneHeld (.beginAuthTransition 0 0) sceneBegun :=
    .beginAuthTransition rfl
  have hposted : OriginStep sceneBegun (.postTransition 0 0) scenePosted :=
    @OriginStep.postTransition sceneBegun 0 0 none rfl fun _ h => (by cases h)
  have hanswered : OriginStep scenePosted (.loginResponse 0 0) sceneAnswered :=
    @OriginStep.loginResponse scenePosted 0 0 1 2 rfl
  have hannounced : OriginStep sceneAnswered (.endAuthTransition 0 0 (.loggedIn ⟨1, 1⟩))
      sceneAnnounced :=
    .endAuthTransition rfl
  have hfencing : Fencing sceneAnswered (.endAuthTransition 0 0 (.loggedIn ⟨1, 1⟩)) := by
    refine ⟨fun c hc => (Option.some.inj hc).symm, fun k phase hne hk => ?_⟩
    rw [sceneAnswered_transitions hne] at hk
    cases hk
  have hheard : OriginStep sceneAnnounced (.deliverReset 1) sceneHeard :=
    .deliverReset (Nat.succ_pos _)
  have hreach : (originSystem.guarded Fencing).Reach sceneHeard := by
    have hheld : (originSystem.guarded Fencing).Reach sceneHeld :=
      reach_held (originSystem.guarded Fencing) ⟨none, rfl⟩ fun _ _ _ h hf => ⟨h, hf⟩
    exact .step (.step (.step (.step (.step hheld ⟨hbegun, trivial⟩) ⟨hposted, trivial⟩)
      ⟨hanswered, trivial⟩) ⟨hannounced, hfencing⟩) ⟨hheard, trivial⟩
  exact (((login_fences_siblings hreach).2 not_open_heard).2 1 rfl).1

end CampusQuest.ContextReset
