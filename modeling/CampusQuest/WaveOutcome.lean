import CampusQuest.OneRotation
import Mathlib.Data.Fintype.EquivFin

/-!
What a wave comes to. There is one POST at most, a call that ends has its token, and from every
state on each pending call can still end: the one behind the lock first, then the others.
-/

namespace CampusQuest.RefreshWave

open Handoff (Millis Token WaveId Csrf AdoptionMessage HandoffMarker Clock Slots ADOPTION_TTL_MS
  MINT_WAIT_MS)
open Runs

/-- What is assumed of every step, with the lifetime of a mint of unknown expiry. -/
def Assumed (expiryMs : Token → Option Millis) (o : Origin) (e : Event) : Prop :=
  Timely expiryMs o e ∧ Young expiryMs o e

def waveRuns (expiryMs : Token → Option Millis) : System Origin Event :=
  (waveSystem expiryMs).guarded (Assumed expiryMs)

section Outcome

variable {expiryMs : Token → Option Millis} {o o' : Origin} {e : Event} {t u : TabId}
  {marker : HandoffMarker} {token : Token} {m : AdoptionMessage}

theorem stage_of_reach (h : (waveRuns expiryMs).Reach o) : o.Observed ∧ Stage expiryMs o := by
  induction h with
  | init hinit =>
    obtain ⟨hlock, hmarker, hchannel, hposts, hissued, hblank⟩ := hinit
    refine ⟨fun t m h => ?_, .before ⟨hposts, hlock, hmarker, hissued, fun t => .inl (hblank t).2,
      fun t => ?_, fun m hm => ?_⟩⟩
    · rw [(hblank t).1] at h
      cases h
    · rw [(hblank t).1]
    · rw [hchannel] at hm
      cases hm
  | step _ hstep ih =>
    obtain ⟨hstep, htimely, hyoung⟩ := hstep
    refine ⟨observed_step ih.1 hstep, ?_⟩
    cases ih.2 with
    | before h => exact h.step ih.1 hstep htimely
    | leading t h => exact h.step hstep htimely
    | published marker token h => exact .published marker token (h.step ih.1 hstep htimely hyoung)

/-! ### The end of a call -/

inductive Ends (o o' : Origin) (t : TabId) : Prop
  | adopted (m : AdoptionMessage) (hlock : o.lock = none)
      (htoken : (o'.tabs t).accessToken = some m.token) (hadopt : o.tryAdopt t = some m)
  | observed (marker : HandoffMarker) (m : AdoptionMessage) (hlock : o.lock = none)
      (htoken : (o'.tabs t).accessToken = some m.token) (hwave : o.wave = some marker)
      (hlast : (o.tabs t).slots.lastAdoption = some m) (hsame : m.waveId = marker.waveId)
  | answered (marker : HandoffMarker) (since : Millis) (heard : List TabId) (m : AdoptionMessage)
      (hphase : (o.tabs t).phase = .probing marker since heard)
      (htoken : (o'.tabs t).accessToken = some m.token)
      (hm : m.waveId = marker.waveId ∧ m ∈ o.channel ∨ ∃ (clock : Clock) (u : TabId),
        since ≤ clock.now ∧ clock.answerProbe marker.waveId (o.tabs u).slots.heldMint = some m)
  | settled (hphase : (o.tabs t).phase = .grace)
      (htoken : (o'.tabs t).accessToken = (o.tabs t).accessToken)

/-- A tab that a step makes idle is the one that it moves. -/
theorem eq_of_idle {tab : Tab} (htabs : o'.tabs = Function.update o.tabs u tab)
    (hne : (o.tabs t).phase ≠ .idle) (hidle : (o'.tabs t).phase = .idle) :
    t = u ∧ tab.phase = .idle := by
  rw [htabs, tabs_setTab] at hidle
  split at hidle
  next h => exact ⟨h, hidle⟩
  next => exact (hne hidle).elim

theorem adopt_token : ((o.adopt t m).tabs t).accessToken = some m.token := by
  change ((Function.update o.tabs t _) t).accessToken = _
  rw [Function.update_self]

theorem ends_of_step (hstep : OriginStep expiryMs o e o') (hne : (o.tabs t).phase ≠ .idle)
    (hidle : (o'.tabs t).phase = .idle) : Ends o o' t := by
  have hself : ∀ {u tab}, o'.tabs = Function.update o.tabs u tab → tab.phase ≠ .idle → False :=
    fun htabs hphase => hphase (eq_of_idle htabs hne hidle).2
  have hkept : ∀ {u tab}, o'.tabs = Function.update o.tabs u tab →
      tab.phase = (o.tabs u).phase → False := by
    intro u tab htabs hphase
    obtain ⟨rfl, htab⟩ := eq_of_idle htabs hne hidle
    exact hne (hphase.symm.trans htab)
  cases hstep with
  | tick => exact (hne hidle).elim
  | observe u => exact (hkept (u := u) rfl rfl).elim
  | @refreshAccessToken u => exact (hself (u := u) rfl (fun h => (by cases h))).elim
  | @tryAdopt u m _ hlock hadopt =>
    obtain ⟨rfl, _⟩ := eq_of_idle (u := u) rfl hne hidle
    exact .adopted m hlock adopt_token hadopt
  | @adoptObserved u marker m _ hlock _ hwave halready hvalid =>
    obtain ⟨rfl, _⟩ := eq_of_idle (u := u) rfl hne hidle
    exact .observed marker m hlock adopt_token hwave halready hvalid.wave
  | @probe u => exact (hself (u := u) rfl (fun h => (by cases h))).elim
  | @answer u v marker since heard clock m hphase hclock hanswer =>
    obtain ⟨rfl, _⟩ := eq_of_idle (u := u) (Function.update_idem _ _ _) hne hidle
    exact .answered marker since heard m hphase adopt_token (.inr ⟨clock, v, hclock.1, hanswer⟩)
  | @refuse u => exact (hself (u := u) (Function.update_idem _ _ _) (fun h => (by cases h))).elim
  | @lead u => exact (hself (u := u) rfl (fun h => (by cases h))).elim
  | @dead u => exact (hself (u := u) rfl (fun h => (by cases h))).elim
  | @respond u => exact (hself (u := u) rfl (fun h => (by cases h))).elim
  | @publish u => exact (hself (u := u) rfl (fun h => (by cases h))).elim
  | @settle u hphase =>
    obtain ⟨rfl, _⟩ := eq_of_idle (u := u) rfl hne hidle
    refine .settled hphase ?_
    change ((Function.update o.tabs t _) t).accessToken = _
    rw [Function.update_self]
  | @hear u => exact (hkept (u := u) rfl rfl).elim
  | @hearAwaited u m hm hawaits =>
    obtain ⟨rfl, _⟩ := eq_of_idle (u := u) (Function.update_idem _ _ _) hne hidle
    unfold Awaits at hawaits
    split at hawaits
    next marker since heard hphase =>
      exact .answered marker since heard m hphase adopt_token (.inl ⟨hawaits.wave, hm⟩)
    next => exact hawaits.elim
  | stray => exact (hne hidle).elim

theorem Published.token_of_ends (ho : Published expiryMs o marker token) (hobserved : o.Observed)
    (hends : Ends o o' t) : (o'.tabs t).accessToken = some token := by
  cases hends with
  | adopted m _ htoken hadopt =>
    rw [htoken, (ho.ofWave_tryAdopt hobserved hadopt).sameToken]
  | observed marker' m _ htoken hwave hlast hsame =>
    obtain rfl := ho.eq_wave hwave
    rw [htoken, (ho.channel m (hobserved t m hlast) hsame).sameToken]
  | answered marker' since heard m hphase htoken hm =>
    obtain ⟨rfl, _, hsince, _⟩ := ho.probing hphase
    rw [htoken]
    rcases hm with ⟨hsame, hm⟩ | ⟨clock, u, hclock, hanswer⟩
    · rw [(ho.channel m hm hsame).sameToken]
    · rw [(ho.ofWave_answer (Int.le_trans hsince hclock) hanswer).sameToken]
  | settled hphase htoken =>
    rw [htoken]
    rcases ho.phase_cases t with hrest | ⟨_, _, ⟨_, htoken'⟩ | ⟨since, hprobing⟩⟩
    · rw [hphase] at hrest
      exact hrest.elim (fun h => (by cases h)) fun h => (by cases h)
    · exact htoken'
    · rw [hphase] at hprobing
      cases hprobing

theorem Before.not_ends (ho : Before o) (hobserved : o.Observed) (hends : Ends o o' t) : False := by
  cases hends with
  | adopted m _ _ hadopt =>
    rw [ho.tryAdopt hobserved] at hadopt
    cases hadopt
  | observed marker m _ _ hwave =>
    rw [ho.wave] at hwave
    cases hwave
  | answered _ _ _ _ hphase => exact ho.phase_ne hphase not_resting_probing
  | settled hphase => exact ho.phase_ne hphase not_resting_grace

theorem Leading.not_ends (ho : Leading expiryMs o u) (hends : Ends o o' t) : False := by
  have hbehind : ∀ {phase : Phase}, (o.tabs t).phase = phase → ¬ phase.Resting →
      phase = .posted ∨ phase = .stored o.csrf := by
    intro phase hphase hnot
    obtain rfl := ho.eq_of_phase hphase hnot
    rw [← hphase]
    exact ho.phase.imp And.left fun ⟨_, h, _⟩ => h
  cases hends with
  | adopted m hlock =>
    rw [ho.lock] at hlock
    cases hlock
  | observed marker m hlock =>
    rw [ho.lock] at hlock
    cases hlock
  | answered _ _ _ _ hphase =>
    rcases hbehind hphase not_resting_probing with h | h <;> cases h
  | settled hphase =>
    rcases hbehind hphase not_resting_grace with h | h <;> cases h

/-! ### Each pending call can end -/

def CanEnd (expiryMs : Token → Option Millis) (o : Origin) (t : TabId) : Prop :=
  ∃ o', Relation.ReflTransGen (fun s s' => ∃ e, (waveRuns expiryMs).step s e s') o o' ∧
    (o'.tabs t).phase = .idle

theorem CanEnd.now (h : (o.tabs t).phase = .idle) : CanEnd expiryMs o t := ⟨o, .refl, h⟩

theorem CanEnd.of_step (hstep : (waveRuns expiryMs).step o e o') (h : CanEnd expiryMs o' t) :
    CanEnd expiryMs o t := by
  obtain ⟨o'', hrun, hidle⟩ := h
  exact ⟨o'', .head ⟨e, hstep⟩ hrun, hidle⟩

theorem adopt_idle : ((o.adopt t m).tabs t).phase = .idle := by
  change ((Function.update o.tabs t _) t).phase = _
  rw [Function.update_self]

/-- A holder answers the probe at once. -/
theorem Published.answer_step (ho : Published expiryMs o marker token) {since : Millis}
    {heard : List TabId} (hphase : (o.tabs t).phase = .probing marker since heard) :
    ∃ u m, (waveRuns expiryMs).step o (.answer t u (o.clock u))
      (((o.post m).hear t m).adopt t m) := by
  obtain ⟨_, _, hsince, hbefore, hwindow, _⟩ := ho.probing hphase
  obtain ⟨u, m₀, hheld⟩ := ho.holder
  have hof := ho.held u m₀ hheld
  have husable : (o.clock u).bearerUsable m₀.expiresAt := by
    rw [hof.expiresAt]
    exact ho.usable u
  have hanswer : (o.clock u).answerProbe marker.waveId (o.tabs u).slots.heldMint =
      some { m₀ with sentAt := if m₀.expiresAt = none then m₀.sentAt else (o.clock u).now } := by
    rw [hheld]
    exact if_pos ⟨hof.waveId, husable⟩
  have hclock : since ≤ (o.clock u).now ∧ (o.clock u).now ≤ o.now := ⟨hbefore, Int.le_refl _⟩
  refine ⟨u, _, .answer hphase hclock hanswer
    (ho.valid_answer hphase hsince hwindow hclock hanswer), ?_, trivial⟩
  intro issued hissued
  obtain rfl := Option.some.inj (ho.issued.symm.trans hissued)
  exact ho.usable u

theorem Published.canEnd_of_free (ho : Published expiryMs o marker token) (hobserved : o.Observed)
    (hlock : o.lock = none) (hphase : (o.tabs t).phase = .waiting) : CanEnd expiryMs o t := by
  cases hadopt : o.tryAdopt t with
  | some m => exact .of_step ⟨.tryAdopt hphase hlock hadopt, trivial, trivial⟩ (.now adopt_idle)
  | none =>
    by_cases hvalid : ∃ m ∈ (o.tabs t).slots.lastAdoption, (o.clock t).Valid marker m
    · obtain ⟨m, hlast, hvalid⟩ := hvalid
      exact .of_step ⟨.adoptObserved hphase hlock hadopt ho.wave hlast hvalid, trivial, trivial⟩
        (.now adopt_idle)
    · have hprobe : OriginStep expiryMs o (.probe t)
          { o.setPhase t (.probing marker o.now []) with lock := some t } :=
        .probe hphase hlock hadopt ho.wave fun m hm h => hvalid ⟨m, hm, h⟩
      have hprobing : (Origin.tabs { o.setPhase t (.probing marker o.now []) with
          lock := some t } t).phase = .probing marker o.now [] := by
        change ((Function.update o.tabs t _) t).phase = _
        rw [Function.update_self]
      obtain ⟨u, m, hanswer⟩ := (ho.step hobserved hprobe trivial trivial).answer_step hprobing
      exact .of_step ⟨hprobe, trivial, trivial⟩ (.of_step hanswer (.now adopt_idle))

theorem Published.canEnd (ho : Published expiryMs o marker token) (hobserved : o.Observed)
    (t : TabId) : CanEnd expiryMs o t := by
  have hsettle : ∀ {v}, (o.tabs v).phase = .grace → (waveRuns expiryMs).step o (.settle v)
      { o.setPhase v .idle with lock := none } := fun h => ⟨.settle h, trivial, trivial⟩
  rcases ho.phase_cases t with (hidle | hwaiting) | ⟨_, _, ⟨hgrace, _⟩ | ⟨since, hprobing⟩⟩
  · exact .now hidle
  · -- Whoever is behind the lock ends first.
    cases hlock : o.lock with
    | none => exact ho.canEnd_of_free hobserved hlock hwaiting
    | some v =>
      have hmoved : ∀ {tab}, t ≠ v → ((Function.update o.tabs v tab) t).phase = .waiting := by
        intro tab htv
        rw [Function.update_of_ne htv]
        exact hwaiting
      rcases ho.locked with ⟨hfree, _⟩ | ⟨v', hlock', _, ⟨hgrace, _⟩ | ⟨since, hprobing, _⟩⟩
      · rw [hlock] at hfree
        cases hfree
      · obtain rfl := Option.some.inj (hlock.symm.trans hlock')
        have htv : t ≠ v := fun h => by
          subst h
          rw [hwaiting] at hgrace
          cases hgrace
        have hstep := hsettle hgrace
        exact .of_step hstep ((ho.step hobserved hstep.1 trivial trivial).canEnd_of_free
          (observed_step hobserved hstep.1) rfl (hmoved htv))
      · obtain rfl := Option.some.inj (hlock.symm.trans hlock')
        have htv : t ≠ v := fun h => by
          subst h
          rw [hwaiting] at hprobing
          cases hprobing
        obtain ⟨u, m, hstep⟩ := ho.answer_step hprobing
        refine .of_step hstep ((ho.step hobserved hstep.1 hstep.2.1 hstep.2.2).canEnd_of_free
          (observed_step hobserved hstep.1) rfl ?_)
        change ((Function.update (Function.update o.tabs v _) v _) t).phase = _
        rw [Function.update_idem]
        exact hmoved htv
  · refine .of_step (hsettle hgrace) (.now ?_)
    change ((Function.update o.tabs t _) t).phase = _
    rw [Function.update_self]
  · obtain ⟨u, m, hstep⟩ := ho.answer_step hprobing
    exact .of_step hstep (.now adopt_idle)

theorem exists_fresh (channel : List AdoptionMessage) :
    ∃ waveId, ∀ m ∈ channel, m.waveId ≠ waveId := by
  obtain ⟨waveId, hfresh⟩ :=
    Infinite.exists_notMem_finset (channel.map AdoptionMessage.waveId).toFinset
  refine ⟨waveId, fun m hm h => hfresh ?_⟩
  rw [List.mem_toFinset, ← h]
  exact List.mem_map_of_mem hm

theorem Leading.canEnd_of_stored (ho : Leading expiryMs o u) (hobserved : o.Observed)
    (hphase : (o.tabs u).phase = .stored o.csrf) (htoken : (o.tabs u).accessToken = some token)
    (t : TabId) : CanEnd expiryMs o t := by
  obtain ⟨waveId, hfresh⟩ := exists_fresh o.channel
  have hstep : (waveRuns expiryMs).step o (.publish u) _ :=
    ⟨.publish hphase htoken hfresh, trivial, trivial⟩
  exact .of_step hstep
    ((ho.publish hphase htoken hfresh).canEnd (observed_step hobserved hstep.1) t)

theorem Leading.canEnd (ho : Leading expiryMs o u) (hobserved : o.Observed)
    (husable : ∀ v, (o.clock v).bearerUsable (expiryMs token)) (t : TabId) :
    CanEnd expiryMs o t := by
  rcases ho.phase with ⟨hphase, _⟩ | ⟨token', hphase, htoken, _⟩
  · have hstep : (waveRuns expiryMs).step o (.respond u token) (o.respond u token none) :=
      ⟨.respond token none hphase, husable, trivial⟩
    refine .of_step hstep (@Leading.canEnd_of_stored expiryMs _ u token (ho.respond husable)
      (observed_step hobserved hstep.1) ?_ ?_ t)
    · change ((Function.update o.tabs u _) u).phase = .stored none
      rw [Function.update_self]
    · change ((Function.update o.tabs u _) u).accessToken = some token
      rw [Function.update_self]
  · exact ho.canEnd_of_stored hobserved hphase htoken t

theorem Before.canEnd (ho : Before o) (hobserved : o.Observed)
    (husable : ∀ v, (o.clock v).bearerUsable (expiryMs token)) (t : TabId) :
    CanEnd expiryMs o t := by
  rcases ho.resting t with hidle | hwaiting
  · exact .now hidle
  have hstep : (waveRuns expiryMs).step o (.lead t) (o.lead t) :=
    ⟨.lead hwaiting ho.lock (ho.tryAdopt hobserved) ho.wave, trivial, trivial⟩
  refine .of_step hstep (@Leading.canEnd expiryMs _ t token ho.lead
    (observed_step hobserved hstep.1) (fun v => ?_) t)
  change Clock.bearerUsable ⟨o.now, ((Function.update o.tabs t _) v).serverClockOffset⟩ _
  rw [tabs_setTab]
  split
  · exact husable t
  · exact husable v

end Outcome

/-- In every state of a wave at most one refresh was sent, each call can still end when the server
has a usable bearer to issue, and a call that ends has the token of the one refresh. -/
theorem one_rotation_per_wave (expiryMs : Token → Option Millis) (o : Origin)
    (hreach : (waveRuns expiryMs).Reach o) :
    o.posts ≤ 1 ∧
    (∀ t, (∃ token, ∀ u, (o.clock u).bearerUsable (expiryMs token)) → CanEnd expiryMs o t) ∧
    ∀ e o' t, (waveRuns expiryMs).step o e o' → (o.tabs t).phase ≠ .idle →
      (o'.tabs t).phase = .idle →
      o'.posts = 1 ∧ ∃ token, o'.issued = some token ∧ (o'.tabs t).accessToken = some token := by
  obtain ⟨hobserved, hstage⟩ := stage_of_reach hreach
  cases hstage with
  | before h =>
    refine ⟨h.posts.trans_le (Nat.zero_le 1),
      fun t ⟨token, husable⟩ => h.canEnd hobserved husable t, fun e o' t hstep hne hidle => ?_⟩
    exact (h.not_ends hobserved (ends_of_step hstep.1 hne hidle)).elim
  | leading u h =>
    refine ⟨h.posts.le, fun t ⟨token, husable⟩ => h.canEnd hobserved husable t,
      fun e o' t hstep hne hidle => ?_⟩
    exact (h.not_ends (ends_of_step hstep.1 hne hidle)).elim
  | published marker token h =>
    refine ⟨h.posts.le, fun t _ => h.canEnd hobserved t, fun e o' t hstep hne hidle => ?_⟩
    have hafter := h.step hobserved hstep.1 hstep.2.1 hstep.2.2
    exact ⟨hafter.posts, token, hafter.issued,
      h.token_of_ends hobserved (ends_of_step hstep.1 hne hidle)⟩

section Scene

def sceneExpiry : Token → Option Millis := fun _ => none

def sceneBlank : Tab := ⟨none, ⟨none, none⟩, .idle, 0⟩

def sceneStart : Origin := ⟨0, fun _ => sceneBlank, none, none, none, [], 0, none⟩

def sceneMint : AdoptionMessage := ⟨1, 5, some 7, 0, none⟩

def sceneMarker : HandoffMarker := ⟨1, some 7, 0⟩

def sceneStored : Origin := ((sceneStart.setPhase 0 .waiting).lead 0).respond 0 5 (some 7)

def sceneGrace : Origin := sceneStored.publishMint 0 sceneMint

def sceneSettled : Origin := { sceneGrace.setPhase 0 .idle with lock := none }

def sceneCalled : Origin := { sceneSettled with now := 9999 }.setPhase 1 .waiting

def sceneProbing : Origin :=
  { { sceneCalled with now := 10000 }.setPhase 1 (.probing sceneMarker 10000 []) with
    lock := some 1 }

def sceneRefused : Origin :=
  ((sceneProbing.post sceneMint).hear 1 sceneMint).setPhase 1 (.probing sceneMarker 10000 [0])

theorem scene_usable (o : Origin) (clock : Clock) : o.UsableAt sceneExpiry clock :=
  fun _ _ => trivial

/-- While no probe is out no window can pass. -/
theorem scene_tick {o : Origin} {now : Millis}
    (h : ∀ t marker since heard, (o.tabs t).phase ≠ .probing marker since heard) :
    Timely sceneExpiry o (.tick now) :=
  ⟨fun t marker since heard hphase _ => (h t marker since heard hphase).elim,
    fun _ => scene_usable _ _⟩

/-- The mint is published, under any assumption that these steps meet. -/
theorem scene_reach {G : Origin → Event → Prop}
    (hG : ∀ o e, Timely sceneExpiry o e → (∀ now, e ≠ .tick now) → G o e) :
    ((waveSystem sceneExpiry).guarded G).Reach sceneGrace := by
  have hcall : OriginStep sceneExpiry sceneStart (.refreshAccessToken 0) _ :=
    .refreshAccessToken rfl
  have hlead : OriginStep sceneExpiry (sceneStart.setPhase 0 .waiting) (.lead 0) _ :=
    .lead rfl rfl rfl rfl
  have hrespond : OriginStep sceneExpiry ((sceneStart.setPhase 0 .waiting).lead 0) (.respond 0 5)
      sceneStored := .respond 5 (some 7) rfl
  have hpublish : OriginStep sceneExpiry sceneStored (.publish 0) sceneGrace :=
    @OriginStep.publish _ _ _ _ _ 1 rfl rfl fun _ h => (by cases h)
  have hinit : (waveSystem sceneExpiry).init sceneStart :=
    ⟨rfl, rfl, rfl, rfl, rfl, fun _ => ⟨rfl, rfl⟩⟩
  exact .step (.step (.step (.step (.init hinit)
    ⟨hcall, hG _ _ (fun _ h => (by cases h)) fun _ h => (by cases h)⟩)
    ⟨hlead, hG _ _ trivial fun _ h => (by cases h)⟩)
    ⟨hrespond, hG _ _ (fun _ => trivial) fun _ h => (by cases h)⟩)
    ⟨hpublish, hG _ _ trivial fun _ h => (by cases h)⟩

theorem scene_tabs {o : Origin} {phases : Phase × Phase}
    (h₀ : (o.tabs 0).phase = phases.1) (h₁ : (o.tabs 1).phase = phases.2)
    (hrest : ∀ t, t ≠ 0 → t ≠ 1 → o.tabs t = sceneBlank) {P : Phase → Prop} (hp₀ : P phases.1)
    (hp₁ : P phases.2) (hidle : P .idle) (t : TabId) : P (o.tabs t).phase := by
  by_cases ht₀ : t = 0
  · rw [ht₀, h₀]
    exact hp₀
  by_cases ht₁ : t = 1
  · rw [ht₁, h₁]
    exact hp₁
  · rw [hrest t ht₀ ht₁]
    exact hidle

theorem scene_blank (t : TabId) (h₀ : t ≠ 0) (h₁ : t ≠ 1) : sceneRefused.tabs t = sceneBlank ∧
    sceneCalled.tabs t = sceneBlank ∧ sceneSettled.tabs t = sceneBlank := by
  have hsettled : sceneSettled.tabs t = sceneBlank := by
    change (Function.update (Function.update (Function.update (Function.update (Function.update
      sceneStart.tabs 0 _) 0 _) 0 _) 0 _) 0 _) t = _
    rw [Function.update_of_ne h₀, Function.update_of_ne h₀, Function.update_of_ne h₀,
      Function.update_of_ne h₀, Function.update_of_ne h₀]
    rfl
  have hcalled : sceneCalled.tabs t = sceneBlank := by
    change (Function.update sceneSettled.tabs 1 _) t = _
    rw [Function.update_of_ne h₁]
    exact hsettled
  refine ⟨?_, hcalled, hsettled⟩
  change (Function.update (Function.update (Function.update sceneCalled.tabs 1 _) 1 _) 1 _) t = _
  rw [Function.update_of_ne h₁, Function.update_of_ne h₁, Function.update_of_ne h₁]
  exact hcalled

end Scene

/-- A bearer without a known expiry: a call within the lifetime of its mint, whose probe is
answered when the lifetime has passed, refuses the answer and sends a second refresh. -/
theorem late_answer_second_post :
    ¬ ∀ (expiryMs : Token → Option Millis) (o : Origin),
      ((waveSystem expiryMs).guarded (Timely expiryMs)).Reach o → o.posts ≤ 1 := by
  intro hall
  have hsettle : OriginStep sceneExpiry sceneGrace (.settle 0) sceneSettled := .settle rfl
  have htick : OriginStep sceneExpiry sceneSettled (.tick 9999) { sceneSettled with now := 9999 } :=
    .tick (by decide)
  have hcall : OriginStep sceneExpiry { sceneSettled with now := 9999 } (.refreshAccessToken 1)
      sceneCalled := .refreshAccessToken rfl
  have hlate : OriginStep sceneExpiry sceneCalled (.tick 10000) { sceneCalled with now := 10000 } :=
    .tick (by decide)
  have hprobe : OriginStep sceneExpiry { sceneCalled with now := 10000 } (.probe 1) sceneProbing :=
    .probe rfl rfl rfl rfl fun _ h => (by cases h)
  have hrefuse : OriginStep sceneExpiry sceneProbing (.answer 1 0 ⟨10000, 0⟩) sceneRefused :=
    .refuse (m := sceneMint) rfl (by decide) rfl (by decide)
  have hwindow : OriginStep sceneExpiry sceneRefused (.tick 10400)
      { sceneRefused with now := 10400 } := .tick (by decide)
  have hdead : OriginStep sceneExpiry { sceneRefused with now := 10400 } (.dead 1) _ :=
    @OriginStep.dead _ _ _ sceneMarker 10000 [0] rfl (by decide)
  -- The only holder has answered.
  have hanswered : ¬ sceneRefused.Unanswered sceneMarker [0] := by
    rintro ⟨u, m, hheld, _, hu⟩
    have hu₀ : u ≠ 0 := fun h => hu (List.mem_singleton.mpr h)
    by_cases hu₁ : u = 1
    · subst hu₁
      cases hheld
    · rw [(scene_blank u hu₀ hu₁).1] at hheld
      cases hheld
  have hprobing : ∀ t marker since heard,
      (sceneRefused.tabs t).phase = .probing marker since heard → marker = sceneMarker ∧ since = 10000 ∧ heard = [0] := by
    refine @scene_tabs sceneRefused (.idle, .probing sceneMarker 10000 [0]) rfl rfl
      (fun t h₀ h₁ => (scene_blank t h₀ h₁).1) (fun phase => ∀ marker since heard,
        phase = .probing marker since heard → marker = sceneMarker ∧ since = 10000 ∧ heard = [0])
      (fun _ _ _ h => (by cases h)) (fun _ _ _ h => ?_) fun _ _ _ h => (by cases h)
    obtain ⟨rfl, rfl, rfl⟩ := Phase.probing.inj h
    exact ⟨rfl, rfl, rfl⟩
  have hquiet : ∀ o : Origin, o = sceneSettled ∨ o = sceneCalled →
      Timely sceneExpiry o (.tick 10000) ∧ Timely sceneExpiry o (.tick 9999) := by
    rintro o (rfl | rfl)
    · have hnone := @scene_tabs sceneSettled (.idle, .idle) rfl rfl
        (fun t h₀ h₁ => (scene_blank t h₀ h₁).2.2)
        (fun phase => ∀ marker since heard, phase ≠ .probing marker since heard)
        (fun _ _ _ h => (by cases h)) (fun _ _ _ h => (by cases h)) fun _ _ _ h => (by cases h)
      exact ⟨scene_tick hnone, scene_tick hnone⟩
    · have hnone := @scene_tabs sceneCalled (.idle, .waiting) rfl rfl
        (fun t h₀ h₁ => (scene_blank t h₀ h₁).2.1)
        (fun phase => ∀ marker since heard, phase ≠ .probing marker since heard)
        (fun _ _ _ h => (by cases h)) (fun _ _ _ h => (by cases h)) fun _ _ _ h => (by cases h)
      exact ⟨scene_tick hnone, scene_tick hnone⟩
  have hreach := System.Reach.step (System.Reach.step (System.Reach.step (System.Reach.step
    (System.Reach.step (System.Reach.step (System.Reach.step (System.Reach.step
      (scene_reach (G := Timely sceneExpiry) fun _ _ h _ => h)
      ⟨hsettle, trivial⟩) ⟨htick, (hquiet _ (.inl rfl)).2⟩)
      ⟨hcall, fun marker hmarker => by obtain rfl := Option.some.inj hmarker; decide⟩)
      ⟨hlate, (hquiet _ (.inr rfl)).1⟩) ⟨hprobe, trivial⟩) ⟨hrefuse, scene_usable _ _⟩)
      ⟨hwindow, fun t marker since heard hphase hopen => by
        obtain ⟨rfl, rfl, rfl⟩ := hprobing t marker since heard hphase
        exact (hanswered hopen).elim, fun _ => scene_usable _ _⟩)
      ⟨hdead, fun marker since heard hphase hopen => by
        obtain ⟨rfl, rfl, rfl⟩ := hprobing 1 marker since heard hphase
        exact hanswered hopen⟩
  have htwo : (2 : ℕ) ≤ 1 := hall sceneExpiry _ hreach
  omega

theorem first_call_ends : sceneGrace.posts ≤ 1 ∧ CanEnd sceneExpiry sceneGrace 0 ∧
    sceneSettled.posts = 1 ∧
    ∃ token, sceneSettled.issued = some token ∧ (sceneSettled.tabs 0).accessToken = some token := by
  have hreach : (waveRuns sceneExpiry).Reach sceneGrace := by
    refine scene_reach fun o e htimely htick => ⟨htimely, ?_⟩
    cases e with
    | tick now => exact (htick now rfl).elim
    | _ => trivial
  obtain ⟨hposts, hcan, hends⟩ := one_rotation_per_wave sceneExpiry sceneGrace hreach
  exact ⟨hposts, hcan 0 ⟨5, fun _ => trivial⟩, hends (.settle 0) sceneSettled 0
    ⟨.settle rfl, trivial, trivial⟩ (fun h => (by cases h)) rfl⟩

end CampusQuest.RefreshWave
