import CampusQuest.RefreshWave

/-!
One rotation a wave. Behind the lock there is either the leader of the wave or a tab that adopts
its mint: a mint of another wave is refused by the marker, and some holder of the wave answers each
probe with a mint that is valid where it arrives.
-/

namespace CampusQuest.RefreshWave

open Handoff (Millis Token WaveId Csrf AdoptionMessage HandoffMarker Clock Slots ADOPTION_TTL_MS
  MINT_WAIT_MS)
open Runs

section Steps

variable {expiryMs : Token → Option Millis} {o o' : Origin} {e : Event} {t u : TabId}
  {marker : HandoffMarker} {token : Token} {m : AdoptionMessage} {clock : Clock}

theorem within_slack {writtenAt sentAt : ℤ} (h : writtenAt ≤ sentAt) : writtenAt - 50 ≤ sentAt := by
  omega

/-- What is posted within the window of a probe is fresh where it arrives. -/
theorem fresh_within_window {since sentAt now : ℤ} (hsent : since ≤ sentAt)
    (hwindow : now ≤ since + 400) : now - sentAt < 10000 := by
  omega

/-! ### Before the first POST -/

theorem Before.wave (ho : Before o) : o.wave = none := by
  unfold Origin.wave
  rw [ho.marker]
  rfl

theorem Before.tryAdopt (ho : Before o) (hobserved : o.Observed) : o.tryAdopt t = none := by
  by_contra hsome
  obtain ⟨m, hm⟩ := Option.ne_none_iff_exists'.mp hsome
  obtain ⟨hslot, hadoptable⟩ := Slots.tryAdopt_eq_some hm
  rcases hslot with hheld | hlast
  · rw [ho.held t] at hheld
    cases hheld
  · exact ho.foreign m (hobserved t m hlast) hadoptable.context

theorem Before.setTab {tab : Tab} (ho : Before o) (hphase : tab.phase.Resting)
    (hheld : tab.slots.heldMint = none) : Before (o.setTab t tab) :=
  ⟨ho.posts, ho.lock, ho.marker, ho.issued,
    forall_setTab (P := fun _ tab => tab.phase.Resting) ho.resting hphase,
    forall_setTab (P := fun _ tab => tab.slots.heldMint = none) ho.held hheld, ho.foreign⟩

theorem Before.phase_ne (ho : Before o) {phase : Phase} (h : (o.tabs t).phase = phase)
    (hphase : ¬ phase.Resting) : False := hphase (h ▸ ho.resting t)

theorem Before.lead (ho : Before o) : Leading expiryMs (o.lead t) t := by
  refine ⟨congrArg (· + 1) ho.posts, rfl, rfl, fun u hu => ?_, ?_, .inl ⟨?_, ho.issued⟩, ?_⟩
  · change ((Function.update o.tabs t _) u).phase.Resting
    rw [Function.update_of_ne hu]
    exact ho.resting u
  · exact forall_setTab (P := fun _ tab => tab.slots.heldMint = none) ho.held (ho.held t)
  · change ((Function.update o.tabs t _) t).phase = _
    rw [Function.update_self]
  · intro u issued hissued
    change issued ∈ o.issued at hissued
    rw [ho.issued] at hissued
    cases hissued

theorem Before.step (ho : Before o) (hobserved : o.Observed) (hstep : OriginStep expiryMs o e o')
    (htimely : Timely expiryMs o e) : Stage expiryMs o' := by
  have hwave : ∀ {w}, o.wave = some w → False := fun h => by rw [ho.wave] at h; cases h
  cases hstep with
  | tick => exact .before ⟨ho.posts, ho.lock, ho.marker, ho.issued, ho.resting, ho.held, ho.foreign⟩
  | observe t => exact .before (ho.setTab (ho.resting t) (ho.held t))
  | @refreshAccessToken t => exact .before (ho.setTab (.inr rfl) (ho.held t))
  | tryAdopt _ _ hadopt =>
    rw [ho.tryAdopt hobserved] at hadopt
    cases hadopt
  | adoptObserved _ _ _ hwave' => exact (hwave hwave').elim
  | probe _ _ _ hwave' => exact (hwave hwave').elim
  | answer hphase => exact (ho.phase_ne hphase not_resting_probing).elim
  | refuse hphase => exact (ho.phase_ne hphase not_resting_probing).elim
  | @lead t => exact .leading t ho.lead
  | dead hphase => exact (ho.phase_ne hphase not_resting_probing).elim
  | respond _ _ hphase => exact (ho.phase_ne hphase not_resting_posted).elim
  | publish hphase => exact (ho.phase_ne hphase not_resting_stored).elim
  | settle hphase => exact (ho.phase_ne hphase not_resting_grace).elim
  | @hear t => exact .before (ho.setTab (ho.resting t) (ho.held t))
  | @hearAwaited t m _ hphase => exact ((ho.resting t).not_awaits hphase).elim
  | stray m =>
    refine .before ⟨ho.posts, ho.lock, ho.marker, ho.issued, ho.resting, ho.held, fun m' hm' => ?_⟩
    rcases List.mem_cons.mp hm' with rfl | hm'
    · exact htimely.2 ho.marker
    · exact ho.foreign m' hm'

/-! ### The leader -/

theorem Leading.not_resting (ho : Leading expiryMs o t) : ¬ (o.tabs t).phase.Resting := by
  rcases ho.phase with ⟨h, _⟩ | ⟨token, h, _⟩
  · rw [h]
    exact not_resting_posted
  · rw [h]
    exact not_resting_stored

/-- The tabs beside the leader are resting, so a rotation behind its entry is the leader's. -/
theorem Leading.eq_of_phase (ho : Leading expiryMs o t) {phase : Phase}
    (h : (o.tabs u).phase = phase) (hphase : ¬ phase.Resting) : u = t := by
  by_contra hu
  exact hphase (h ▸ ho.resting u hu)

theorem Leading.ne_of_resting (ho : Leading expiryMs o t) {phase : Phase}
    (h : (o.tabs u).phase = phase) (hphase : phase.Resting) : u ≠ t := by
  rintro rfl
  exact ho.not_resting (h ▸ hphase)

/-- A step of a tab that leaves the leader where it is. -/
theorem Leading.setTab {tab : Tab} (ho : Leading expiryMs o t)
    (hphase : u ≠ t → tab.phase.Resting)
    (hleader : u = t → tab.phase = (o.tabs t).phase ∧ tab.accessToken = (o.tabs t).accessToken)
    (hheld : tab.slots.heldMint = none)
    (husable : o.UsableAt expiryMs ⟨o.now, tab.serverClockOffset⟩) :
    Leading expiryMs (o.setTab u tab) t := by
  have htab : ((o.setTab u tab).tabs t).phase = (o.tabs t).phase ∧
      ((o.setTab u tab).tabs t).accessToken = (o.tabs t).accessToken := by
    change ((Function.update o.tabs u tab) t).phase = _ ∧
      ((Function.update o.tabs u tab) t).accessToken = _
    rw [tabs_setTab]
    split
    next h => exact hleader h.symm
    next => exact ⟨rfl, rfl⟩
  refine ⟨ho.posts, ho.lock, ho.marker, fun v hv => ?_, ?_, ?_, ?_⟩
  · change ((Function.update o.tabs u tab) v).phase.Resting
    rw [tabs_setTab]
    split
    next h =>
      subst h
      exact hphase hv
    next => exact ho.resting v hv
  · exact forall_setTab (P := fun _ tab => tab.slots.heldMint = none) ho.held hheld
  · rw [htab.1, htab.2]
    exact ho.phase
  · exact forall_setTab (P := fun _ tab => o.UsableAt expiryMs ⟨o.now, tab.serverClockOffset⟩)
      ho.usable husable

theorem Leading.publish {contextId : Option Csrf} {waveId : WaveId} (ho : Leading expiryMs o t)
    (hphase : (o.tabs t).phase = .stored contextId) (htoken : (o.tabs t).accessToken = some token)
    (hfresh : ∀ m ∈ o.channel, m.waveId ≠ waveId) :
    Published expiryMs (o.publishMint t ⟨waveId, token, contextId, o.now, expiryMs token⟩)
      ⟨waveId, contextId, o.now⟩ token := by
  obtain ⟨hcontext, hissued⟩ : contextId = o.csrf ∧ o.issued = some token := by
    rcases ho.phase with ⟨h, _⟩ | ⟨token', h, htoken', hissued⟩
    · rw [hphase] at h
      cases h
    · rw [hphase] at h
      rw [htoken] at htoken'
      obtain rfl := Option.some.inj htoken'
      exact ⟨Phase.stored.inj h, hissued⟩
  have hof : OfWave expiryMs ⟨waveId, contextId, o.now⟩ token
      ⟨waveId, token, contextId, o.now, expiryMs token⟩ :=
    ⟨rfl, rfl, rfl, rfl, Int.le_refl o.now, fun _ => rfl⟩
  refine ⟨ho.posts, rfl, hissued, hcontext, Int.le_refl o.now,
    ⟨t, ⟨waveId, token, contextId, o.now, expiryMs token⟩, ?_⟩, ?_, ?_, ?_, ?_, ?_⟩
  · change ((Function.update o.tabs t _) t).slots.heldMint = some _
    rw [Function.update_self]
  · refine forall_setTab (P := fun _ tab => ∀ m, tab.slots.heldMint = some m → OfWave expiryMs _ _ m)
      (fun u m h => ?_) fun m h => ?_
    · rw [ho.held u] at h
      cases h
    · obtain rfl := Option.some.inj h
      exact hof
  · intro m hm hwave
    rcases List.mem_cons.mp hm with rfl | hm
    · exact hof
    · exact (hfresh m hm hwave).elim
  · exact forall_setTab (P := fun _ tab => Clock.bearerUsable ⟨o.now, tab.serverClockOffset⟩ _)
      (fun u => ho.usable u token hissued) (ho.usable t token hissued)
  · intro _ _
    change o.now - o.now < ADOPTION_TTL_MS
    rw [Int.sub_self]
    decide
  · refine .inr ⟨t, ho.lock, fun u hu => ?_, .inl ?_⟩
    · change ((Function.update o.tabs t _) u).phase.Resting
      rw [Function.update_of_ne hu]
      exact ho.resting u hu
    · change ((Function.update o.tabs t _) t).phase = _ ∧
        ((Function.update o.tabs t _) t).accessToken = _
      rw [Function.update_self]
      exact ⟨rfl, htoken⟩

theorem Leading.respond {csrfToken : Option Csrf} (ho : Leading expiryMs o t)
    (husable : ∀ u, (o.clock u).bearerUsable (expiryMs token)) :
    Leading expiryMs (o.respond t token csrfToken) t := by
  refine ⟨ho.posts, ho.lock, ho.marker, fun u hu => ?_, ?_, .inr ⟨token, ?_, ?_, rfl⟩, ?_⟩
  · change ((Function.update o.tabs t _) u).phase.Resting
    rw [Function.update_of_ne hu]
    exact ho.resting u hu
  · exact forall_setTab (P := fun _ tab => tab.slots.heldMint = none) ho.held (ho.held t)
  · change ((Function.update o.tabs t _) t).phase = _
    rw [Function.update_self]
    rfl
  · change ((Function.update o.tabs t _) t).accessToken = _
    rw [Function.update_self]
  · intro u issued hissued
    have hsame : token = issued := Option.some.inj hissued
    rw [← hsame]
    change Clock.bearerUsable ⟨o.now, ((Function.update o.tabs t _) u).serverClockOffset⟩ _
    rw [tabs_setTab]
    split
    · exact husable t
    · exact husable u

theorem Leading.step (ho : Leading expiryMs o t) (hstep : OriginStep expiryMs o e o')
    (htimely : Timely expiryMs o e) : Stage expiryMs o' := by
  have hlock : o.lock = none → False := fun h => by rw [ho.lock] at h; cases h
  have hprobing : ∀ {u marker since heard}, (o.tabs u).phase = .probing marker since heard →
      False := by
    intro u marker since heard h
    obtain rfl := ho.eq_of_phase h not_resting_probing
    rcases ho.phase with ⟨h', _⟩ | ⟨_, h', _⟩ <;> (rw [h] at h'; cases h')
  cases hstep with
  | tick =>
    exact .leading t ⟨ho.posts, ho.lock, ho.marker, ho.resting, ho.held, ho.phase, htimely.2⟩
  | observe u =>
    exact .leading t (ho.setTab (ho.resting u) (by rintro rfl; exact ⟨rfl, rfl⟩) (ho.held u)
      htimely)
  | @refreshAccessToken u hphase =>
    have hu := ho.ne_of_resting hphase (.inl rfl)
    exact .leading t (ho.setTab (fun _ => .inr rfl) (fun h => (hu h).elim) (ho.held u)
      (ho.usable u))
  | tryAdopt _ hfree => exact (hlock hfree).elim
  | adoptObserved _ hfree => exact (hlock hfree).elim
  | probe _ hfree => exact (hlock hfree).elim
  | answer hphase => exact (hprobing hphase).elim
  | refuse hphase => exact (hprobing hphase).elim
  | lead _ hfree => exact (hlock hfree).elim
  | dead hphase => exact (hprobing hphase).elim
  | respond _ _ hphase =>
    obtain rfl := ho.eq_of_phase hphase not_resting_posted
    exact .leading _ (ho.respond htimely)
  | publish hphase htoken hfresh =>
    obtain rfl := ho.eq_of_phase hphase not_resting_stored
    exact .published _ _ (ho.publish hphase htoken hfresh)
  | settle hphase =>
    obtain rfl := ho.eq_of_phase hphase not_resting_grace
    rcases ho.phase with ⟨h', _⟩ | ⟨_, h', _⟩ <;> (rw [hphase] at h'; cases h')
  | @hear u =>
    exact .leading t (ho.setTab (ho.resting u) (by rintro rfl; exact ⟨rfl, rfl⟩) (ho.held u)
      (ho.usable u))
  | @hearAwaited u m _ hphase =>
    unfold Awaits at hphase
    split at hphase
    next h => exact (hprobing h).elim
    next => exact hphase.elim
  | stray m =>
    exact .leading t ⟨ho.posts, ho.lock, ho.marker, ho.resting, ho.held, ho.phase, ho.usable⟩

/-! ### Behind the publication -/

theorem Published.wave (ho : Published expiryMs o marker token) : o.wave = some marker := by
  unfold Origin.wave
  rw [ho.stands, Option.filter_some, if_pos (decide_eq_true ho.context)]

theorem Published.ofWave_tryAdopt (ho : Published expiryMs o marker token) (hobserved : o.Observed)
    (h : o.tryAdopt t = some m) : OfWave expiryMs marker token m := by
  obtain ⟨hslot, hadoptable⟩ := Slots.tryAdopt_eq_some h
  have hwave := hadoptable.wave marker ho.stands ho.context
  rcases hslot with hheld | hlast
  · exact ho.held t m hheld
  · exact ho.channel m (hobserved t m hlast) hwave.symm

theorem Published.ofWave_answer (ho : Published expiryMs o marker token)
    (hposted : marker.writtenAt ≤ clock.now)
    (h : clock.answerProbe marker.waveId (o.tabs u).slots.heldMint = some m) :
    OfWave expiryMs marker token m := by
  obtain ⟨m₀, hheld, _, _, rfl⟩ := clock.answerProbe_eq_some h
  have hm₀ := ho.held u m₀ hheld
  refine ⟨hm₀.waveId, hm₀.sameToken, hm₀.contextId, hm₀.expiresAt, ?_, fun hunknown => ?_⟩
  · dsimp only
    split
    · exact hm₀.posted
    · exact hposted
  · have hnone := hm₀.expiresAt.trans hunknown
    dsimp only
    rw [if_pos hnone]
    exact hm₀.original hunknown

/-- An answer that comes within the window is valid. -/
theorem Published.valid_answer (ho : Published expiryMs o marker token) {since : Millis}
    {heard : List TabId} (hphase : (o.tabs t).phase = .probing marker since heard)
    (hsince : marker.writtenAt ≤ since) (hwindow : o.now ≤ since + MINT_WAIT_MS)
    (hclock : since ≤ clock.now ∧ clock.now ≤ o.now)
    (h : clock.answerProbe marker.waveId (o.tabs u).slots.heldMint = some m) :
    (o.clock t).Valid marker m := by
  have hposted : marker.writtenAt ≤ clock.now := Int.le_trans hsince hclock.1
  have hof := ho.ofWave_answer hposted h
  refine ⟨hof.waveId, within_slack hof.posted, hof.contextId, ?_, ?_⟩
  · -- With an expiry the answer has a new time, otherwise the call is within the lifetime.
    change o.now - m.sentAt < ADOPTION_TTL_MS
    cases hexpiry : expiryMs token with
    | none =>
      rw [hof.original hexpiry]
      exact ho.young hexpiry ⟨t, by rw [hphase]; trivial⟩
    | some expiresAt =>
      obtain ⟨m₀, hheld, _, _, rfl⟩ := clock.answerProbe_eq_some h
      have hsome := (ho.held u m₀ hheld).expiresAt.trans hexpiry
      dsimp only
      rw [hsome, if_neg (by exact fun h => (by cases h))]
      exact fresh_within_window hclock.1 hwindow
  · rw [hof.expiresAt]
    exact ho.usable t

theorem Published.probing (ho : Published expiryMs o marker token) {marker' : HandoffMarker}
    {since : Millis} {heard : List TabId}
    (hphase : (o.tabs t).phase = .probing marker' since heard) :
    marker' = marker ∧ heard = [] ∧ marker.writtenAt ≤ since ∧ since ≤ o.now ∧
      o.now ≤ since + MINT_WAIT_MS ∧ o.lock = some t ∧
      ∀ u, u ≠ t → (o.tabs u).phase.Resting := by
  have hnot : ¬ (o.tabs t).phase.Resting := by
    rw [hphase]
    exact not_resting_probing
  rcases ho.locked with ⟨_, hresting⟩ | ⟨t', hlock, hresting, hbehind⟩
  · exact (hnot (hresting t)).elim
  obtain rfl : t = t' := by
    by_contra ht
    exact hnot (hresting t ht)
  rcases hbehind with ⟨hgrace, _⟩ | ⟨since', hprobing, hsince, hnow, hwindow⟩
  · rw [hphase] at hgrace
    cases hgrace
  · rw [hphase] at hprobing
    obtain ⟨rfl, rfl, rfl⟩ := Phase.probing.inj hprobing
    exact ⟨rfl, rfl, hsince, hnow, hwindow, hlock, hresting⟩

theorem Published.unanswered (ho : Published expiryMs o marker token) : o.Unanswered marker [] := by
  obtain ⟨u, m, hheld⟩ := ho.holder
  exact ⟨u, m, hheld, (ho.held u m hheld).waveId, List.not_mem_nil⟩

/-- A step of one tab that keeps what it holds of the wave, or takes a mint of it. -/
theorem Published.setTab {tab : Tab} (ho : Published expiryMs o marker token)
    (htabs : o'.tabs = Function.update o.tabs t tab)
    (hsame : o'.posts = o.posts ∧ o'.marker = o.marker ∧ o'.issued = o.issued ∧ o'.csrf = o.csrf ∧
      o'.now = o.now)
    (hchannel : ∀ m ∈ o'.channel, m ∈ o.channel ∨ (m.waveId = marker.waveId →
      OfWave expiryMs marker token m))
    (hheld : tab.slots.heldMint = (o.tabs t).slots.heldMint ∨
      ∃ m, tab.slots.heldMint = some m ∧ OfWave expiryMs marker token m)
    (husable : Clock.bearerUsable ⟨o.now, tab.serverClockOffset⟩ (expiryMs token))
    (hpending : tab.phase.Pending → (o.tabs t).phase.Pending ∨
      o.now - marker.writtenAt < ADOPTION_TTL_MS)
    (hlocked : Locked o' marker token) : Published expiryMs o' marker token := by
  obtain ⟨hposts, hmarker, hissued, hcsrf, hnow⟩ := hsame
  refine ⟨hposts.trans ho.posts, hmarker.trans ho.stands, hissued.trans ho.issued,
    ho.context.trans hcsrf.symm, by rw [hnow]; exact ho.written, ?_, ?_, fun m hm hwave => ?_, ?_,
    ?_, hlocked⟩
  · obtain ⟨u, m, hu⟩ := ho.holder
    rw [htabs]
    by_cases hut : u = t
    · subst hut
      rcases hheld with hkept | ⟨m', hm', _⟩
      · exact ⟨u, m, by rw [Function.update_self, hkept]; exact hu⟩
      · exact ⟨u, m', by rw [Function.update_self]; exact hm'⟩
    · exact ⟨u, m, by rw [Function.update_of_ne hut]; exact hu⟩
  · rw [htabs]
    refine forall_setTab (P := fun _ tab => ∀ m, tab.slots.heldMint = some m →
      OfWave expiryMs marker token m) ho.held fun m hm => ?_
    rcases hheld with hkept | ⟨m', hm', hof⟩
    · exact ho.held t m (hkept.symm.trans hm)
    · obtain rfl := Option.some.inj (hm'.symm.trans hm)
      exact hof
  · exact (hchannel m hm).elim (fun h => ho.channel m h hwave) fun h => h hwave
  · intro u
    unfold Origin.clock
    rw [htabs, hnow]
    exact forall_setTab (P := fun _ tab => Clock.bearerUsable ⟨o.now, tab.serverClockOffset⟩ _)
      ho.usable husable u
  · rintro hunknown ⟨u, hu⟩
    rw [hnow]
    rw [htabs, tabs_setTab] at hu
    split at hu
    · exact (hpending hu).elim (fun h => ho.young hunknown ⟨t, h⟩) id
    · exact ho.young hunknown ⟨u, hu⟩

/-- A tab that adopts a mint of the wave leaves nobody behind the lock. -/
theorem Published.adopt {tab : Tab} (ho : Published expiryMs o marker token)
    (htab : tab.phase = .idle ∧ tab.slots.heldMint = some m ∧
      tab.serverClockOffset = (o.tabs t).serverClockOffset)
    (htabs : o'.tabs = Function.update o.tabs t tab)
    (hsame : o'.posts = o.posts ∧ o'.marker = o.marker ∧ o'.issued = o.issued ∧ o'.csrf = o.csrf ∧
      o'.now = o.now)
    (hchannel : ∀ m' ∈ o'.channel, m' ∈ o.channel ∨ m' = m)
    (hlock : o'.lock = none) (hresting : ∀ u, u ≠ t → (o.tabs u).phase.Resting)
    (hof : OfWave expiryMs marker token m) : Published expiryMs o' marker token := by
  refine ho.setTab htabs hsame (fun m' hm' => ?_) (.inr ⟨m, htab.2.1, hof⟩) ?_ ?_ ?_
  · refine (hchannel m' hm').imp id fun h _ => ?_
    rw [h]
    exact hof
  · rw [htab.2.2]
    exact ho.usable t
  · intro hpending
    rw [htab.1] at hpending
    exact hpending.elim
  · refine .inl ⟨hlock, fun u => ?_⟩
    rw [htabs, tabs_setTab]
    split
    · exact .inl htab.1
    next hu => exact hresting u hu

/-- A tab that keeps its place, or rests before and after, leaves the lock as it is. -/
theorem Locked.setTab {tab : Tab} (ho : Locked o marker token)
    (htabs : o'.tabs = Function.update o.tabs t tab) (hlock : o'.lock = o.lock)
    (hnow : o'.now = o.now)
    (htab : tab.phase = (o.tabs t).phase ∧ tab.accessToken = (o.tabs t).accessToken ∨
      (o.tabs t).phase.Resting ∧ tab.phase.Resting) : Locked o' marker token := by
  have hresting : ∀ u, (o.tabs u).phase.Resting → (o'.tabs u).phase.Resting := by
    intro u hu
    rw [htabs, tabs_setTab]
    split
    next h =>
      subst h
      exact htab.elim (fun h => h.1 ▸ hu) fun h => h.2
    next => exact hu
  rcases ho with ⟨hfree, hall⟩ | ⟨t', hlocked, hothers, hbehind⟩
  · exact .inl ⟨hlock.trans hfree, fun u => hresting u (hall u)⟩
  refine .inr ⟨t', hlock.trans hlocked, fun u hu => hresting u (hothers u hu), ?_⟩
  have hsame : (o'.tabs t').phase = (o.tabs t').phase ∧
      (o'.tabs t').accessToken = (o.tabs t').accessToken := by
    rw [htabs, tabs_setTab]
    split
    next h =>
      subst h
      refine htab.resolve_right fun hrest => ?_
      rcases hbehind with ⟨hgrace, _⟩ | ⟨since, hprobing, _⟩
      · rw [hgrace] at hrest
        exact hrest.1.elim (fun h => (by cases h)) fun h => (by cases h)
      · rw [hprobing] at hrest
        exact hrest.1.elim (fun h => (by cases h)) fun h => (by cases h)
    next => exact ⟨rfl, rfl⟩
  rw [hsame.1, hsame.2, hnow]
  exact hbehind

/-- A rotation behind its entry is in the grace or waits for an answer. -/
theorem Published.phase_cases (ho : Published expiryMs o marker token) (t : TabId) :
    (o.tabs t).phase.Resting ∨ (o.lock = some t ∧ (∀ u, u ≠ t → (o.tabs u).phase.Resting) ∧
      ((o.tabs t).phase = .grace ∧ (o.tabs t).accessToken = some token ∨
        ∃ since, (o.tabs t).phase = .probing marker since [])) := by
  rcases ho.locked with ⟨_, hresting⟩ | ⟨t', hlock, hresting, hbehind⟩
  · exact .inl (hresting t)
  by_cases ht : t = t'
  · subst ht
    exact .inr ⟨hlock, hresting, hbehind.imp id fun ⟨since, h, _⟩ => ⟨since, h⟩⟩
  · exact .inl (hresting t ht)

theorem Published.not_leading (ho : Published expiryMs o marker token)
    (h : (o.tabs t).phase = .posted ∨ ∃ contextId, (o.tabs t).phase = .stored contextId) :
    False := by
  rcases ho.phase_cases t with hrest | ⟨_, _, ⟨hgrace, _⟩ | ⟨since, hprobing⟩⟩
  · rcases h with h | ⟨_, h⟩ <;> rcases hrest with hrest | hrest <;> (rw [h] at hrest; cases hrest)
  · rcases h with h | ⟨_, h⟩ <;> (rw [h] at hgrace; cases hgrace)
  · rcases h with h | ⟨_, h⟩ <;> (rw [h] at hprobing; cases hprobing)

theorem Published.resting_of_free (ho : Published expiryMs o marker token) (hlock : o.lock = none)
    (u : TabId) : (o.tabs u).phase.Resting := by
  rcases ho.phase_cases u with h | ⟨h, _⟩
  · exact h
  · rw [hlock] at h
    cases h

theorem Published.eq_wave (ho : Published expiryMs o marker token) {marker' : HandoffMarker}
    (h : o.wave = some marker') : marker' = marker := by
  rw [ho.wave] at h
  exact (Option.some.inj h).symm

theorem Published.answer (ho : Published expiryMs o marker token) {since : Millis}
    {heard : List TabId} (hphase : (o.tabs t).phase = .probing marker since heard)
    (hclock : since ≤ clock.now)
    (hanswer : clock.answerProbe marker.waveId (o.tabs u).slots.heldMint = some m) :
    Published expiryMs (((o.post m).hear t m).adopt t m) marker token := by
  obtain ⟨_, _, hsince, _, _, _, hresting⟩ := ho.probing hphase
  refine ho.adopt ⟨rfl, rfl, ?_⟩ (Function.update_idem _ _ _) ⟨rfl, rfl, rfl, rfl, rfl⟩
    (fun m' hm' => (List.mem_cons.mp hm').symm) rfl hresting
    (ho.ofWave_answer (Int.le_trans hsince hclock) hanswer)
  change ((Function.update o.tabs t _) t).serverClockOffset = _
  rw [Function.update_self]
  rfl

theorem Published.take (ho : Published expiryMs o marker token) (hlock : o.lock = none)
    (hof : OfWave expiryMs marker token m) : Published expiryMs (o.adopt t m) marker token := by
  have htabs : (o.adopt t m).tabs = Function.update o.tabs t _ := rfl
  refine ho.adopt ?_ htabs ⟨rfl, rfl, rfl, rfl, rfl⟩ (fun _ h => .inl h) rfl
    (fun u _ => ho.resting_of_free hlock u) hof
  exact ⟨rfl, rfl, rfl⟩

theorem Published.step (ho : Published expiryMs o marker token) (hobserved : o.Observed)
    (hstep : OriginStep expiryMs o e o') (htimely : Timely expiryMs o e)
    (hyoung : Young expiryMs o e) : Published expiryMs o' marker token := by
  cases hstep with
  | tick hnow =>
    refine ⟨ho.posts, ho.stands, ho.issued, ho.context, Int.le_trans ho.written hnow, ho.holder,
      ho.held, ho.channel, fun u => htimely.2 u token ho.issued,
      fun hunknown hpending => hyoung token ho.issued hunknown hpending marker ho.stands, ?_⟩
    refine ho.locked.imp id fun ⟨t, hlock, hresting, hbehind⟩ => ⟨t, hlock, hresting, ?_⟩
    refine hbehind.imp id fun ⟨since, hphase, hsince, hbefore, _⟩ => ?_
    exact ⟨since, hphase, hsince, Int.le_trans hbefore hnow,
      htimely.1 t marker since [] hphase ho.unanswered⟩
  | observe t =>
    exact ho.setTab rfl ⟨rfl, rfl, rfl, rfl, rfl⟩ (fun _ h => .inl h) (.inl rfl)
      (htimely token ho.issued) .inl (ho.locked.setTab rfl rfl rfl (.inl ⟨rfl, rfl⟩))
  | @refreshAccessToken t hphase =>
    exact ho.setTab rfl ⟨rfl, rfl, rfl, rfl, rfl⟩ (fun _ h => .inl h) (.inl rfl) (ho.usable t)
      (fun _ => .inr (htimely marker ho.stands))
      (ho.locked.setTab rfl rfl rfl (.inr ⟨.inl hphase, .inr rfl⟩))
  | @tryAdopt t m hphase hlock hadopt =>
    exact ho.take hlock (ho.ofWave_tryAdopt hobserved hadopt)
  | @adoptObserved t marker' m hphase hlock _ hwave halready hvalid =>
    obtain rfl := ho.eq_wave hwave
    exact ho.take hlock (ho.channel m (hobserved t m halready) hvalid.wave)
  | @probe t marker' hphase hlock _ hwave =>
    obtain rfl := ho.eq_wave hwave
    refine ho.setTab rfl ⟨rfl, rfl, rfl, rfl, rfl⟩ (fun _ h => .inl h) (.inl rfl) (ho.usable t)
      (fun _ => .inl (by rw [hphase]; trivial)) (.inr ⟨t, rfl, fun u hu => ?_, .inr ⟨o.now, ?_, ?_⟩⟩)
    · change ((Function.update o.tabs t _) u).phase.Resting
      rw [Function.update_of_ne hu]
      exact ho.resting_of_free hlock u
    · change ((Function.update o.tabs t _) t).phase = _
      rw [Function.update_self]
    · exact ⟨ho.written, Int.le_refl _, Int.le_add_of_nonneg_right (by decide)⟩
  | @answer t u marker' since heard clock m hphase hclock hanswer =>
    obtain ⟨rfl, _⟩ := ho.probing hphase
    exact ho.answer hphase hclock.1 hanswer
  | refuse hphase hclock hanswer hinvalid =>
    obtain ⟨rfl, _, hsince, _, hwindow, _⟩ := ho.probing hphase
    exact (hinvalid (ho.valid_answer hphase hsince hwindow hclock hanswer)).elim
  | lead _ _ _ hwave =>
    rw [ho.wave] at hwave
    cases hwave
  | @dead t marker' since heard hphase =>
    obtain ⟨rfl, rfl, _⟩ := ho.probing hphase
    exact (htimely _ _ _ hphase ho.unanswered).elim
  | respond _ _ hphase => exact (ho.not_leading (.inl hphase)).elim
  | publish hphase => exact (ho.not_leading (.inr ⟨_, hphase⟩)).elim
  | @settle t hphase =>
    have hothers : ∀ u, u ≠ t → (o.tabs u).phase.Resting := by
      rcases ho.phase_cases t with hrest | ⟨_, hothers, _⟩
      · rw [hphase] at hrest
        exact hrest.elim (fun h => (by cases h)) fun h => (by cases h)
      · exact hothers
    refine ho.setTab rfl ⟨rfl, rfl, rfl, rfl, rfl⟩ (fun _ h => .inl h) (.inl rfl) (ho.usable t)
      (fun h => h.elim) (.inl ⟨rfl, fun u => ?_⟩)
    change ((Function.update o.tabs t _) u).phase.Resting
    rw [tabs_setTab]
    split
    · exact .inl rfl
    next hu => exact hothers u hu
  | @hear t =>
    exact ho.setTab rfl ⟨rfl, rfl, rfl, rfl, rfl⟩ (fun _ h => .inl h) (.inl rfl) (ho.usable t) .inl
      (ho.locked.setTab rfl rfl rfl (.inl ⟨rfl, rfl⟩))
  | @hearAwaited t m hm hawaits =>
    unfold Awaits at hawaits
    split at hawaits
    next marker' since heard hphase =>
      obtain ⟨rfl, _, _, _, _, _, hresting⟩ := ho.probing hphase
      refine ho.adopt ⟨rfl, rfl, ?_⟩ (Function.update_idem _ _ _) ⟨rfl, rfl, rfl, rfl, rfl⟩
        (fun _ h => .inl h) rfl hresting (ho.channel m hm hawaits.wave)
      change ((Function.update o.tabs t _) t).serverClockOffset = _
      rw [Function.update_self]
    next => exact hawaits.elim
  | stray m =>
    refine ⟨ho.posts, ho.stands, ho.issued, ho.context, ho.written, ho.holder, ho.held,
      fun m' hm' hwave => ?_, ho.usable, ho.young, ho.locked⟩
    rcases List.mem_cons.mp hm' with rfl | hm'
    · exact (htimely.1 marker ho.stands hwave).elim
    · exact ho.channel m' hm' hwave

end Steps

end CampusQuest.RefreshWave
