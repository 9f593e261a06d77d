import CampusQuest.HandoffChannel

/-!
What a handoff may bring and what it leaves in the storage. A token is adopted before the margin
of its own expiry, or within the lifetime of its own mint. The storage is a function of the steps
of a run without the token strings.
-/

namespace CampusQuest.Handoff

open Tables Runs

/-- What is asked of a token with this expiry, at its adoption, for a mint of this time. -/
def Clock.MayAdopt (clock : Clock) (mintedAt : Millis) : Option Millis → Prop
  | some expiresAt => clock.now + clock.serverClockOffset + ADOPTION_EXPIRY_MARGIN_MS < expiresAt
  | none => clock.now - mintedAt < ADOPTION_TTL_MS

/-- A message without its token and the expiry that the token decodes to. -/
def AdoptionMessage.erase (m : AdoptionMessage) : AdoptionMessage :=
  { m with token := 0, expiresAt := none }

def Event.erase : Event → Event
  | .adopt t clock m => .adopt t clock m.erase
  | .hear t m => .hear t m.erase
  | .response t _ csrfToken => .response t 0 csrfToken
  | .setAccessToken t token => .setAccessToken t (token.map fun _ => 0)
  | e => e

structure PublicState where
  storage : Storage
  lastMintContext : TabId → Option (Option Csrf)

def Origin.publicState (o : Origin) : PublicState :=
  ⟨o.storage, fun t => (o.tabs t).lastMintContext⟩

def PublicState.after (p : PublicState) : Event → PublicState
  | .load t source =>
    ⟨{ p.storage with
        publishedWave := Function.update p.storage.publishedWave t (p.storage.publishedWave source) },
      Function.update p.lastMintContext t none⟩
  | .lead _ => { p with storage := { p.storage with marker := none } }
  | .response t _ csrfToken =>
    { p with lastMintContext := Function.update p.lastMintContext t (some csrfToken) }
  | .publish t waveId now =>
    match p.lastMintContext t with
    | some contextId =>
      { p with storage := ⟨some ⟨waveId, contextId, now⟩,
          Function.update p.storage.publishedWave t (some waveId)⟩ }
    | none => p
  | .broadcastContextReset t =>
    { p with storage := ⟨none, Function.update p.storage.publishedWave t none⟩ }
  | _ => p

theorem PublicState.after_erase (p : PublicState) (e : Event) : p.after e.erase = p.after e := by
  cases e <;> rfl

section Storage

variable {exp : Token → Option ℤ} {o o' : Origin} {e : Event} {t : TabId}

theorem publicState_setTab {tab : Tab} {storage : Storage}
    (htabs : o'.tabs = Function.update o.tabs t tab) (hstorage : o'.storage = storage) :
    o'.publicState = ⟨storage,
      Function.update (fun t => (o.tabs t).lastMintContext) t tab.lastMintContext⟩ := by
  unfold Origin.publicState
  rw [htabs, hstorage]
  congr 1
  funext t'
  by_cases ht : t' = t
  · subst ht
    rw [Function.update_self, Function.update_self]
  · rw [Function.update_of_ne ht, Function.update_of_ne ht]

/-- The tab keeps its context of the last refresh. -/
theorem publicState_sameContext {tab : Tab} {storage : Storage}
    (htabs : o'.tabs = Function.update o.tabs t tab)
    (hcontext : tab.lastMintContext = (o.tabs t).lastMintContext)
    (hstorage : o'.storage = storage) :
    o'.publicState = ⟨storage, fun t => (o.tabs t).lastMintContext⟩ := by
  rw [publicState_setTab htabs hstorage, hcontext]
  congr 1
  exact Function.update_eq_self t _

theorem publicState_step (hstep : OriginStep exp o e o') :
    o'.publicState = o.publicState.after e := by
  cases hstep with
  | @load t => exact (publicState_setTab (o := o) (t := t) rfl rfl).trans rfl
  | refreshAccessToken => exact publicState_sameContext rfl rfl rfl
  | tryAdopt => exact publicState_sameContext rfl rfl rfl
  | resolveAtOnce => exact publicState_sameContext rfl rfl rfl
  | probe => exact publicState_sameContext rfl rfl rfl
  | @answered t clock marker m =>
    have hfeed : (o.feedAdoptionMessage t m).publicState = o.publicState :=
      publicState_sameContext rfl rfl rfl
    refine Eq.trans ?_ hfeed
    exact publicState_sameContext rfl rfl rfl
  | lead => exact publicState_sameContext rfl rfl rfl
  | leadDead => exact publicState_sameContext rfl rfl rfl
  | @response t => exact (publicState_setTab (o := o) (t := t) rfl rfl).trans rfl
  | refreshFailed => exact publicState_sameContext rfl rfl rfl
  | @publish t token contextId waveId now _ _ hcontext =>
    have htabs : (o.publishMint t ⟨waveId, token, contextId, now, bearerExpiryMs exp token⟩).tabs =
        Function.update o.tabs t _ := rfl
    refine (publicState_sameContext htabs rfl rfl).trans ?_
    change _ = match (o.tabs t).lastMintContext with
      | some contextId => _
      | none => _
    rw [hcontext]
    rfl
  | settle => exact publicState_sameContext rfl rfl rfl
  | hear => exact publicState_sameContext rfl rfl rfl
  | answer => rfl
  | setAccessToken => exact publicState_sameContext rfl rfl rfl
  | setCookie => rfl
  | broadcastContextReset => exact publicState_sameContext rfl rfl rfl
  | contextReset => exact publicState_sameContext rfl rfl rfl

/-- The storage is a function of the erased steps of a run. -/
theorem publicState_run {l : List (Origin × Event × Origin)}
    (hrun : (originSystem exp).Run o l o') :
    o'.publicState = (l.map fun s => s.2.1.erase).foldl PublicState.after o.publicState := by
  induction hrun with
  | nil => rfl
  | snoc _ hstep ih =>
    rw [List.map_append, List.foldl_append, ← ih, publicState_step hstep]
    exact (PublicState.after_erase _ _).symm

end Storage

/-- In every run of the tabs a message travels with the expiry that its token decoded to when it
was minted, a token is adopted before the margin of its expiry or within the lifetime of its mint,
and the storage is the same for runs that differ in the token strings only. -/
theorem handoff_keeps_credentials (exp : Token → Option ℤ) :
    (∀ o m, (originSystem exp).Reach o → o.Carries m → ∃ mint, o.mints.get m.waveId = some mint ∧
      m.token = mint.token ∧ m.expiresAt = mint.expiresAt ∧
      mint.expiresAt = bearerExpiryMs exp mint.token) ∧
    (∀ o o' t clock m, (originSystem exp).Reach o →
      (originSystem exp).step o (.adopt t clock m) o' →
      (o'.tabs t).accessToken = some m.token ∧ ∃ mint, o.mints.get m.waveId = some mint ∧
        mint.token = m.token ∧ clock.MayAdopt mint.sentAt (bearerExpiryMs exp m.token)) ∧
    ∀ o o' l l', (originSystem exp).Run Origin.initial l o →
      (originSystem exp).Run Origin.initial l' o' →
      (l.map fun s => s.2.1.erase) = (l'.map fun s => s.2.1.erase) → o.storage = o'.storage := by
  refine ⟨?_, ?_, ?_⟩
  · intro o m hreach hm
    have ho := lineage_of_reach hreach
    obtain ⟨mint, hmint, hdescends⟩ := ho.carries m hm
    exact ⟨mint, hmint, hdescends.token, hdescends.expiresAt, ho.minted _ _ hmint⟩
  · intro o o' t clock m hreach hstep
    have ho := lineage_of_reach hreach
    obtain ⟨hm, hfresh, husable, htoken⟩ := adopted_of_step hstep
    obtain ⟨mint, hmint, hdescends⟩ := ho.carries m hm
    refine ⟨htoken, mint, hmint, hdescends.token.symm, ?_⟩
    have hexpiry : m.expiresAt = bearerExpiryMs exp m.token := by
      rw [hdescends.expiresAt, ho.minted _ _ hmint, hdescends.token]
    rw [← hexpiry]
    cases hm' : m.expiresAt with
    | some expiresAt =>
      rw [hm'] at husable
      exact lt_sub_iff_add_lt.mp husable
    | none =>
      have hsent := hdescends.sentAt hm'
      change clock.now - mint.sentAt < ADOPTION_TTL_MS
      rw [← hsent]
      exact hfresh
  · intro o o' l l' hrun hrun' hsame
    have h := publicState_run hrun
    rw [hsame, ← publicState_run hrun'] at h
    exact congrArg PublicState.storage h

section Scene

def sceneExp : Token → Option ℤ := fun _ => some 100

def sceneClock : Clock := ⟨1000, 0⟩

def sceneMint (k : Token) : AdoptionMessage := ⟨1, k, some 7, 500, some 100000⟩

def sceneCookie : Origin := { Origin.initial with csrf := some 7 }

def scenePosted : Origin := ((sceneCookie.setPhase 0 .waiting).setPhase 0 .posted).clearMarker

def sceneStored (k : Token) : Origin := scenePosted.setTab 0 { scenePosted.tabs 0 with
  accessToken := some k, lastMintContext := some (some 7), phase := .stored }

/-- The first tab has published its mint; the second one has heard it and looks for one. -/
def sceneHeard (k : Token) : Origin :=
  (((sceneStored k).publishMint 0 (sceneMint k)).feedAdoptionMessage 1 (sceneMint k)).setPhase 1
    .waiting

def sceneEvents (k : Token) : List (Origin × Event × Origin) :=
  [(Origin.initial, .setCookie (some 7), sceneCookie),
    (sceneCookie, .refreshAccessToken 0, sceneCookie.setPhase 0 .waiting),
    (sceneCookie.setPhase 0 .waiting, .lead 0, scenePosted),
    (scenePosted, .response 0 k (some 7), sceneStored k),
    (sceneStored k, .publish 0 1 500, (sceneStored k).publishMint 0 (sceneMint k)),
    ((sceneStored k).publishMint 0 (sceneMint k), .hear 1 (sceneMint k),
      ((sceneStored k).publishMint 0 (sceneMint k)).feedAdoptionMessage 1 (sceneMint k)),
    (((sceneStored k).publishMint 0 (sceneMint k)).feedAdoptionMessage 1 (sceneMint k),
      .refreshAccessToken 1, sceneHeard k)]

theorem scene_run (k : Token) :
    (originSystem sceneExp).Run Origin.initial (sceneEvents k) (sceneHeard k) := by
  have hcookie : OriginStep sceneExp Origin.initial _ sceneCookie := .setCookie (some 7)
  have hrefresh : OriginStep sceneExp sceneCookie _ _ := .refreshAccessToken (t := 0) rfl
  have hlead : OriginStep sceneExp _ _ scenePosted :=
    @OriginStep.lead _ (sceneCookie.setPhase 0 .waiting) 0 sceneClock rfl rfl rfl
  have hresponse : OriginStep sceneExp _ _ (sceneStored k) :=
    .response (o := scenePosted) (t := 0) k (some 7) rfl
  have hpublish : OriginStep sceneExp (sceneStored k) _ _ :=
    @OriginStep.publish _ _ 0 _ _ 1 500 rfl rfl rfl rfl
  have hhear : OriginStep sceneExp ((sceneStored k).publishMint 0 (sceneMint k)) _ _ :=
    .hear (t := 1) (List.mem_cons_self ..)
  have hwaits : OriginStep sceneExp _ _ (sceneHeard k) := .refreshAccessToken (t := 1) rfl
  exact .snoc (.snoc (.snoc (.snoc (.snoc (.snoc (.snoc (.nil _) hcookie) hrefresh) hlead)
    hresponse) hpublish) hhear) hwaits

theorem scene_adopts (k : Token) : (originSystem sceneExp).step (sceneHeard k)
    (.adopt 1 sceneClock (sceneMint k)) ((sceneHeard k).adopt 1 (sceneMint k)) :=
  .tryAdopt rfl rfl

end Scene

/-- The second tab adopts the mint of the first one; another token leaves the same storage. -/
theorem handed_over : (∃ mint, (sceneHeard 5).mints.get 1 = some mint ∧ mint.token = 5 ∧
      (sceneMint 5).expiresAt = mint.expiresAt ∧ mint.expiresAt = bearerExpiryMs sceneExp mint.token ∧
      sceneClock.MayAdopt mint.sentAt (bearerExpiryMs sceneExp 5)) ∧
    (sceneHeard 5).storage = (sceneHeard 6).storage := by
  have hreach : ∀ k, (originSystem sceneExp).Reach (sceneHeard k) := fun k =>
    (scene_run k).reach (.init rfl)
  obtain ⟨hcarries, hadopts, hstorage⟩ := handoff_keeps_credentials sceneExp
  obtain ⟨mint, hmint, htoken, hexpiry, hdecoded⟩ := hcarries (sceneHeard 5) (sceneMint 5) (hreach 5)
    (.observed 1 rfl)
  obtain ⟨_, mint', hmint', _, hmay⟩ := hadopts _ _ 1 sceneClock _ (hreach 5) (scene_adopts 5)
  obtain rfl := Option.some.inj (hmint.symm.trans hmint')
  exact ⟨⟨mint, hmint, htoken.symm, hexpiry, hdecoded, hmay⟩,
    hstorage _ _ _ _ (scene_run 5) (scene_run 6) rfl⟩

end CampusQuest.Handoff
