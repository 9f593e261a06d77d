import CampusQuest.Handoff
import CampusQuest.Runs
import CampusQuest.Tables

/-!
The tabs of one origin with their adoption channel and their storage. A message that was posted
may reach every tab, at any later time and any number of times. The lock, the auth epochs and the
time limits only delay or refuse what a rotation does, so each step comes here whenever the
rotation stands before it.
-/

namespace CampusQuest.Handoff

open Tables Runs

abbrev TabId := ℕ

def bearerExpiryMs (exp : Token → Option ℤ) (token : Token) : Option Millis :=
  (exp token).map fun seconds => if seconds ≤ 0 then 0 else seconds * 1000

inductive ChannelMessage
  | mint (message : AdoptionMessage)
  | probe (waveId : WaveId)
  deriving DecidableEq, Repr

inductive RotationPhase
  | idle
  | waiting
  /-- The probe for the wave of a marker is out. -/
  | probing (marker : HandoffMarker)
  | posted
  | stored
  /-- The delivery grace behind the publication. -/
  | grace
  deriving DecidableEq, Repr

structure Tab where
  accessToken : Option Token
  slots : Slots
  /-- `undefined` before the first refresh that succeeds. -/
  lastMintContext : Option (Option Csrf)
  phase : RotationPhase

def Tab.loaded : Tab := ⟨none, ⟨none, none⟩, none, .idle⟩

/-- What the origin keeps in `localStorage`, and each tab in its `sessionStorage`. -/
structure Storage where
  marker : Option HandoffMarker
  publishedWave : TabId → Option WaveId

structure Origin where
  tabs : TabId → Tab
  storage : Storage
  csrf : Option Csrf
  posted : List ChannelMessage
  /-- The mints as they were published. -/
  mints : Table WaveId AdoptionMessage

namespace Origin

variable (o : Origin) (t : TabId)

def initial : Origin :=
  ⟨fun _ => Tab.loaded, ⟨none, fun _ => none⟩, none, [], Table.empty⟩

def setTab (tab : Tab) : Origin := { o with tabs := Function.update o.tabs t tab }

def setPhase (phase : RotationPhase) : Origin := o.setTab t { o.tabs t with phase := phase }

def adopt (m : AdoptionMessage) : Origin :=
  o.setTab t { o.tabs t with
    accessToken := some m.token
    slots := { (o.tabs t).slots with heldMint := some m }
    phase := .idle }

def post (message : ChannelMessage) : Origin := { o with posted := message :: o.posted }

def clearMarker : Origin := { o with storage := { o.storage with marker := none } }

def feedAdoptionMessage (m : AdoptionMessage) : Origin :=
  o.setTab t { o.tabs t with slots := { (o.tabs t).slots with lastAdoption := some m } }

def publishMint (m : AdoptionMessage) : Origin :=
  { o with
    tabs := Function.update o.tabs t { o.tabs t with slots := ⟨some m, some m⟩, phase := .grace }
    storage := ⟨some ⟨m.waveId, m.contextId, m.sentAt⟩,
      Function.update o.storage.publishedWave t (some m.waveId)⟩
    posted := .mint m :: o.posted
    mints := o.mints.put m.waveId m }

def broadcastContextReset : Origin :=
  { o with
    tabs := Function.update o.tabs t { o.tabs t with slots := ⟨none, none⟩ }
    storage := ⟨none, Function.update o.storage.publishedWave t none⟩ }

/-- A page loads: again, or with a copy of the `sessionStorage` of the page that opened it. -/
def load (source : TabId) : Origin :=
  { o with
    tabs := Function.update o.tabs t Tab.loaded
    storage := { o.storage with
      publishedWave := Function.update o.storage.publishedWave t (o.storage.publishedWave source) } }

def wave : Option HandoffMarker :=
  o.storage.marker.filter fun marker => marker.contextId = o.csrf

end Origin

inductive Event
  | load (t source : TabId)
  | refreshAccessToken (t : TabId)
  | adopt (t : TabId) (clock : Clock) (m : AdoptionMessage)
  | probe (t : TabId)
  | lead (t : TabId)
  | response (t : TabId) (token : Token) (csrfToken : Option Csrf)
  | refreshFailed (t : TabId)
  | publish (t : TabId) (waveId : WaveId) (now : Millis)
  | settle (t : TabId)
  | hear (t : TabId) (m : AdoptionMessage)
  | answer (t : TabId) (clock : Clock) (waveId : WaveId)
  | setAccessToken (t : TabId) (token : Option Token)
  | setCookie (csrf : Option Csrf)
  | broadcastContextReset (t : TabId)
  | contextReset (t : TabId)
  deriving DecidableEq, Repr

inductive OriginStep (exp : Token → Option ℤ) (o : Origin) : Event → Origin → Prop
  | load (t source : TabId) : OriginStep exp o (.load t source) (o.load t source)
  | refreshAccessToken {t : TabId} (hphase : (o.tabs t).phase = .idle) :
      OriginStep exp o (.refreshAccessToken t) (o.setPhase t .waiting)
  | tryAdopt {t : TabId} {clock : Clock} {m : AdoptionMessage}
      (hphase : (o.tabs t).phase = .waiting)
      (hadopt : (o.tabs t).slots.tryAdopt clock o.csrf o.storage.marker = some m) :
      OriginStep exp o (.adopt t clock m) (o.adopt t m)
  | resolveAtOnce {t : TabId} {clock clock' : Clock} {marker : HandoffMarker} {m : AdoptionMessage}
      (hphase : (o.tabs t).phase = .waiting)
      (hadopt : (o.tabs t).slots.tryAdopt clock o.csrf o.storage.marker = none)
      (hwave : o.wave = some marker) (halready : (o.tabs t).slots.lastAdoption = some m)
      (hvalid : clock'.Valid marker m) : OriginStep exp o (.adopt t clock' m) (o.adopt t m)
  | probe {t : TabId} {clock clock' : Clock} {marker : HandoffMarker}
      (hphase : (o.tabs t).phase = .waiting)
      (hadopt : (o.tabs t).slots.tryAdopt clock o.csrf o.storage.marker = none)
      (hwave : o.wave = some marker)
      (halready : ∀ m ∈ (o.tabs t).slots.lastAdoption, ¬ clock'.Valid marker m) :
      OriginStep exp o (.probe t) ((o.setPhase t (.probing marker)).post (.probe marker.waveId))
  -- An answer that resolves the wait is adopted in the task of its arrival.
  | answered {t : TabId} {clock : Clock} {marker : HandoffMarker} {m : AdoptionMessage}
      (hphase : (o.tabs t).phase = .probing marker) (hposted : .mint m ∈ o.posted)
      (hvalid : clock.Valid marker m) :
      OriginStep exp o (.adopt t clock m) ((o.feedAdoptionMessage t m).adopt t m)
  | lead {t : TabId} {clock : Clock} (hphase : (o.tabs t).phase = .waiting)
      (hadopt : (o.tabs t).slots.tryAdopt clock o.csrf o.storage.marker = none)
      (hwave : o.wave = none) :
      OriginStep exp o (.lead t) ((o.setPhase t .posted).clearMarker)
  | leadDead {t : TabId} {marker : HandoffMarker} (hphase : (o.tabs t).phase = .probing marker) :
      OriginStep exp o (.lead t) ((o.setPhase t .posted).clearMarker)
  | response {t : TabId} (token : Token) (csrfToken : Option Csrf)
      (hphase : (o.tabs t).phase = .posted) :
      OriginStep exp o (.response t token csrfToken) (o.setTab t { o.tabs t with
        accessToken := some token, lastMintContext := some csrfToken, phase := .stored })
  | refreshFailed {t : TabId} (hphase : (o.tabs t).phase = .posted) :
      OriginStep exp o (.refreshFailed t) (o.setTab t { o.tabs t with
        accessToken := none, phase := .idle })
  | publish {t : TabId} {token : Token} {contextId : Option Csrf} {waveId : WaveId} (now : Millis)
      (hphase : (o.tabs t).phase = .stored) (htoken : (o.tabs t).accessToken = some token)
      (hcontext : (o.tabs t).lastMintContext = some contextId)
      (hfresh : o.mints.get waveId = none) :
      OriginStep exp o (.publish t waveId now)
        (o.publishMint t ⟨waveId, token, contextId, now, bearerExpiryMs exp token⟩)
  -- The rotation settles, or resolves false: refused by its fences, late for the lock, no channel.
  | settle (t : TabId) : OriginStep exp o (.settle t) (o.setPhase t .idle)
  | hear {t : TabId} {m : AdoptionMessage} (hposted : .mint m ∈ o.posted) :
      OriginStep exp o (.hear t m) (o.feedAdoptionMessage t m)
  | answer {t : TabId} {clock : Clock} {waveId : WaveId} {m : AdoptionMessage}
      (hposted : .probe waveId ∈ o.posted)
      (hanswer : clock.answerProbe waveId (o.tabs t).slots.heldMint = some m) :
      OriginStep exp o (.answer t clock waveId) (o.post (.mint m))
  | setAccessToken (t : TabId) (token : Option Token) :
      OriginStep exp o (.setAccessToken t token) (o.setTab t { o.tabs t with accessToken := token })
  | setCookie (csrf : Option Csrf) : OriginStep exp o (.setCookie csrf) { o with csrf := csrf }
  | broadcastContextReset (t : TabId) :
      OriginStep exp o (.broadcastContextReset t) (o.broadcastContextReset t)
  | contextReset (t : TabId) :
      OriginStep exp o (.contextReset t) (o.setTab t { o.tabs t with
        accessToken := none, slots := ⟨none, none⟩ })

def originSystem (exp : Token → Option ℤ) : System Origin Event where
  init o := o = Origin.initial
  step := OriginStep exp

inductive Origin.Carries (o : Origin) (m : AdoptionMessage) : Prop
  | held (t : TabId) (h : (o.tabs t).slots.heldMint = some m)
  | observed (t : TabId) (h : (o.tabs t).slots.lastAdoption = some m)
  | posted (h : .mint m ∈ o.posted)

/-- A message descends from a mint: it is posted again with its own token and expiry, and without
an expiry with its own time too. -/
structure AdoptionMessage.Descends (m mint : AdoptionMessage) : Prop where
  token : m.token = mint.token
  contextId : m.contextId = mint.contextId
  expiresAt : m.expiresAt = mint.expiresAt
  sentAt : m.expiresAt = none → m.sentAt = mint.sentAt

theorem AdoptionMessage.Descends.refl (m : AdoptionMessage) : m.Descends m :=
  ⟨rfl, rfl, rfl, fun _ => rfl⟩

/-- A holder's answer descends from what its mint descends from. -/
theorem AdoptionMessage.Descends.answer {clock : Clock} {waveId : WaveId}
    {held : Option AdoptionMessage} {m : AdoptionMessage}
    (h : clock.answerProbe waveId held = some m) :
    ∃ m₀, held = some m₀ ∧ m₀.waveId = m.waveId ∧ ∀ mint, m₀.Descends mint → m.Descends mint := by
  obtain ⟨m₀, hheld, _, _, rfl⟩ := clock.answerProbe_eq_some h
  refine ⟨m₀, hheld, rfl, fun mint hm₀ => ⟨hm₀.token, hm₀.contextId, hm₀.expiresAt, ?_⟩⟩
  intro hexpiry
  dsimp only at hexpiry ⊢
  rw [if_pos hexpiry]
  exact hm₀.sentAt hexpiry

section Lineage

variable {exp : Token → Option ℤ} {o o' : Origin} {e : Event} {t : TabId} {m : AdoptionMessage}

/-- Every message descends from the mint of its wave, whose expiry is the one of its token. -/
structure Lineage (exp : Token → Option ℤ) (o : Origin) : Prop where
  carries : ∀ m, o.Carries m → ∃ mint, o.mints.get m.waveId = some mint ∧ m.Descends mint
  minted : ∀ w mint, o.mints.get w = some mint →
    mint.expiresAt = bearerExpiryMs exp mint.token

/-- A step that publishes nothing and posts only what a message of before allows. -/
theorem Lineage.of_carries (ho : Lineage exp o) (hmints : o'.mints = o.mints)
    (hcarries : ∀ m, o'.Carries m → ∃ m₀, o.Carries m₀ ∧ m₀.waveId = m.waveId ∧
      ∀ mint, m₀.Descends mint → m.Descends mint) : Lineage exp o' := by
  constructor
  · intro m hm
    obtain ⟨m₀, hm₀, hwave, hdescends⟩ := hcarries m hm
    obtain ⟨mint, hmint, h⟩ := ho.carries m₀ hm₀
    rw [hmints, ← hwave]
    exact ⟨mint, hmint, hdescends mint h⟩
  · rw [hmints]
    exact ho.minted

theorem carries_cases {tab : Tab} (htabs : o'.tabs = Function.update o.tabs t tab)
    (h : o'.Carries m) : tab.slots.heldMint = some m ∨ tab.slots.lastAdoption = some m ∨
      .mint m ∈ o'.posted ∨ o.Carries m := by
  cases h with
  | held t' h =>
    rw [htabs] at h
    by_cases ht : t' = t
    · subst ht
      rw [Function.update_self] at h
      exact .inl h
    · rw [Function.update_of_ne ht] at h
      exact .inr (.inr (.inr (.held t' h)))
  | observed t' h =>
    rw [htabs] at h
    by_cases ht : t' = t
    · subst ht
      rw [Function.update_self] at h
      exact .inr (.inl h)
    · rw [Function.update_of_ne ht] at h
      exact .inr (.inr (.inr (.observed t' h)))
  | posted h => exact .inr (.inr (.inl h))

/-- A step of one tab that publishes nothing: its slots and the channel hold messages of before. -/
theorem Lineage.setTab {tab : Tab} (ho : Lineage exp o)
    (htabs : o'.tabs = Function.update o.tabs t tab) (hmints : o'.mints = o.mints)
    (hposted : ∀ m, .mint m ∈ o'.posted → .mint m ∈ o.posted)
    (hheld : ∀ m, tab.slots.heldMint = some m → o.Carries m)
    (hobserved : ∀ m, tab.slots.lastAdoption = some m → o.Carries m) :
    Lineage exp o' := by
  refine ho.of_carries hmints fun m hm => ⟨m, ?_, rfl, fun _ h => h⟩
  rcases carries_cases htabs hm with h | h | h | h
  · exact hheld m h
  · exact hobserved m h
  · exact .posted (hposted m h)
  · exact h

theorem Lineage.sameSlots {tab : Tab} (ho : Lineage exp o)
    (htabs : o'.tabs = Function.update o.tabs t tab) (hslots : tab.slots = (o.tabs t).slots)
    (hmints : o'.mints = o.mints) (hposted : ∀ m, .mint m ∈ o'.posted → .mint m ∈ o.posted) :
    Lineage exp o' := by
  refine ho.setTab htabs hmints hposted (fun m h => .held t ?_) fun m h => .observed t ?_
  · rw [← hslots]
    exact h
  · rw [← hslots]
    exact h

theorem Lineage.adopt (ho : Lineage exp o) (hm : o.Carries m) :
    Lineage exp (o.adopt t m) := by
  refine ho.setTab rfl rfl (fun _ h => h) (fun m' h => ?_) fun m' h => .observed t h
  obtain rfl := Option.some.inj h
  exact hm

theorem Lineage.hear (ho : Lineage exp o) (hposted : .mint m ∈ o.posted) :
    Lineage exp (o.feedAdoptionMessage t m) := by
  refine ho.setTab rfl rfl (fun _ h => h) (fun m' h => .held t h) fun m' h => ?_
  obtain rfl := Option.some.inj h
  exact .posted hposted

theorem Lineage.forget {tab : Tab} (ho : Lineage exp o)
    (htabs : o'.tabs = Function.update o.tabs t tab) (hslots : tab.slots = ⟨none, none⟩)
    (hmints : o'.mints = o.mints) (hposted : o'.posted = o.posted) : Lineage exp o' := by
  refine ho.setTab htabs hmints (fun m h => ?_) (fun m h => ?_) fun m h => ?_
  · rw [← hposted]
    exact h
  · rw [hslots] at h
    cases h
  · rw [hslots] at h
    cases h

theorem Lineage.publish (ho : Lineage exp o) (hfresh : o.mints.get m.waveId = none)
    (hexpiry : m.expiresAt = bearerExpiryMs exp m.token) :
    Lineage exp (o.publishMint t m) := by
  have hself : (o.publishMint t m).mints.get m.waveId = some m := Table.get_put_self _ _ _
  have hold : ∀ w mint, o.mints.get w = some mint →
      (o.publishMint t m).mints.get w = some mint := by
    intro w mint hw
    refine (Table.get_put_of_ne _ _ ?_).trans hw
    rintro rfl
    cases hfresh.symm.trans hw
  constructor
  · intro m' hm'
    have hcases : m' = m ∨ o.Carries m' := by
      rcases carries_cases (o := o) rfl hm' with h | h | h | h
      · exact .inl (Option.some.inj h).symm
      · exact .inl (Option.some.inj h).symm
      · rcases List.mem_cons.mp h with h | h
        · exact .inl (ChannelMessage.mint.inj h)
        · exact .inr (.posted h)
      · exact .inr h
    rcases hcases with rfl | hcarried
    · exact ⟨m', hself, .refl m'⟩
    · obtain ⟨mint, hmint, hdescends⟩ := ho.carries m' hcarried
      exact ⟨mint, hold _ _ hmint, hdescends⟩
  · intro w mint hmint
    rcases Table.get_put_eq_some hmint with ⟨rfl, rfl⟩ | ⟨_, h⟩
    · exact hexpiry
    · exact ho.minted w mint h

theorem carries_of_tryAdopt {clock : Clock}
    (h : (o.tabs t).slots.tryAdopt clock o.csrf o.storage.marker = some m) : o.Carries m :=
  (Slots.tryAdopt_eq_some h).1.elim (.held t) (.observed t)

theorem Lineage.step (ho : Lineage exp o) (hstep : OriginStep exp o e o') :
    Lineage exp o' := by
  cases hstep with
  | load => exact ho.forget rfl rfl rfl rfl
  | refreshAccessToken => exact ho.sameSlots rfl rfl rfl fun _ h => h
  | tryAdopt _ hadopt => exact ho.adopt (carries_of_tryAdopt hadopt)
  | resolveAtOnce _ _ _ halready => exact ho.adopt (.observed _ halready)
  | probe =>
    refine ho.sameSlots rfl rfl rfl fun m h => ?_
    rcases List.mem_cons.mp h with h | h
    · cases h
    · exact h
  | answered _ hposted => exact (ho.hear hposted).adopt (.posted hposted)
  | lead => exact ho.sameSlots rfl rfl rfl fun _ h => h
  | leadDead => exact ho.sameSlots rfl rfl rfl fun _ h => h
  | response => exact ho.sameSlots rfl rfl rfl fun _ h => h
  | refreshFailed => exact ho.sameSlots rfl rfl rfl fun _ h => h
  | publish _ _ _ _ hfresh => exact ho.publish hfresh rfl
  | settle => exact ho.sameSlots rfl rfl rfl fun _ h => h
  | hear hposted => exact ho.hear hposted
  | @answer t clock waveId m _ hanswer =>
    obtain ⟨m₀, hheld, hwave, hdescends⟩ := AdoptionMessage.Descends.answer hanswer
    refine ho.of_carries rfl fun m' hm' => ?_
    cases hm' with
    | held t' h => exact ⟨m', .held t' h, rfl, fun _ h => h⟩
    | observed t' h => exact ⟨m', .observed t' h, rfl, fun _ h => h⟩
    | posted h =>
      rcases List.mem_cons.mp h with h | h
      · obtain rfl := ChannelMessage.mint.inj h
        exact ⟨m₀, .held t hheld, hwave, hdescends⟩
      · exact ⟨m', .posted h, rfl, fun _ h => h⟩
  | setAccessToken => exact ho.sameSlots rfl rfl rfl fun _ h => h
  | setCookie =>
    refine ho.of_carries rfl fun m hm => ⟨m, ?_, rfl, fun _ h => h⟩
    cases hm with
    | held t' h => exact .held t' h
    | observed t' h => exact .observed t' h
    | posted h => exact .posted h
  | broadcastContextReset => exact ho.forget rfl rfl rfl rfl
  | contextReset => exact ho.forget rfl rfl rfl rfl

theorem lineage_of_reach (h : (originSystem exp).Reach o) : Lineage exp o := by
  induction h with
  | init hinit =>
    obtain rfl : _ = Origin.initial := hinit
    refine ⟨fun m hm => ?_, fun _ _ h => (by cases h)⟩
    cases hm with
    | held t h => cases h
    | observed t h => cases h
    | posted h => cases h
  | step _ hstep ih => exact ih.step hstep

/-- What is adopted is carried, usable, and fresh as it was posted. -/
theorem adopted_of_step {clock : Clock} (hstep : OriginStep exp o (.adopt t clock m) o') :
    o.Carries m ∧ clock.now - m.sentAt < ADOPTION_TTL_MS ∧ clock.bearerUsable m.expiresAt ∧
      (o'.tabs t).accessToken = some m.token := by
  have htoken : ∀ origin : Origin, ((origin.adopt t m).tabs t).accessToken = some m.token := by
    intro origin
    change (Function.update origin.tabs t _ t).accessToken = _
    rw [Function.update_self]
  cases hstep with
  | tryAdopt _ hadopt =>
    have hadoptable := (Slots.tryAdopt_eq_some hadopt).2
    exact ⟨carries_of_tryAdopt hadopt, hadoptable.fresh, hadoptable.usable, htoken o⟩
  | resolveAtOnce _ _ _ halready hvalid =>
    exact ⟨.observed t halready, hvalid.fresh, hvalid.usable, htoken o⟩
  | answered _ hposted hvalid =>
    exact ⟨.posted hposted, hvalid.fresh, hvalid.usable, htoken _⟩

end Lineage

end CampusQuest.Handoff
