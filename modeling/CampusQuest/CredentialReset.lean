import CampusQuest.SessionRevocation

/-!
Resetting a password. A reset flushes the new hash and revokes the refresh sessions in one
commit. The two other bearer credentials of an account live elsewhere: remembered devices are
rows of their own and pending credentials of the second factor are keys of a cache, and no
reset touches either. Requests that redeem one of them read it first and open the session in
a later commit.
-/

namespace CampusQuest.Identity

open Guards Locking Runs Tables

inductive PendingDomain
  | email
  | staffMobile
  deriving DecidableEq, Repr

/-- A pending credential is stored under its domain and the digest of its token. -/
abbrev PendingKey := PendingDomain × Text

inductive BearerCredential
  | refresh (id : SessionId)
  | device (id : DeviceId)
  | pending (key : PendingKey)
  deriving DecidableEq

/-- The database and the pending credentials. The ghosts: `owner` is the account that a device
or pending credential was ever issued to, `stale` holds the credentials that a committed reset
of their account came after, and `breached` says that a session was opened from one. -/
structure CredentialStore where
  revocation : RevocationStore
  pending : Table PendingKey UserId
  owner : BearerCredential → Option UserId
  stale : Set BearerCredential
  breached : Prop

/-- `hashPassword` makes the verifier that `verifyPassword` of the sessions checks. -/
structure CredentialService where
  sessions : SessionService
  hashPassword : Text → Text
  hashCookie : Text → Text

def UsablePassword (password : Text) : Prop := 10 ≤ password.length ∧ password.length ≤ 128

instance (password : Text) : Decidable (UsablePassword password) :=
  inferInstanceAs (Decidable (_ ∧ _))

/-- The three resets, with what authorizes each: the current password, the code that was sent
to a phone, and the link that names an account. -/
inductive PasswordReset
  | changePassword (user : UserId) (current : Text) (keep : Option SessionId)
  | confirmPasswordReset (phone : Text)
  | consumePasswordReset (user : UserId)

def PasswordReset.gate (svc : CredentialService) (db : Db) :
    PasswordReset → Option (UserId × Option SessionId)
  | changePassword user current keep => do
    let row ← db.users.get user
    if row.passwordHash.any (svc.sessions.verifyPassword current) then some (user, keep) else none
  | confirmPasswordReset phone => do
    let (user, row) ← db.users.find fun _ u => u.phoneE164 = some phone
    if row.role = .student then some (user, none) else none
  | consumePasswordReset user => do
    let row ← db.users.get user
    if row.status = .active then some (user, none) else none

def BearerCredential.Opens (row : User) : BearerCredential → Prop
  | refresh _ => False
  | device _ => row.status.admitted = true ∧ row.role ≠ .admin
  | pending (.email, _) => row.role = .admin ∧ row.status = .active
  | pending (.staffMobile, _) => row.status = .active

/-- A request at work: one of the session service, a reset with its new verifier and the
session it keeps, or one that has read a credential and the accounts. -/
inductive CredentialRequest
  | session (r : SessionRequest)
  | resetting (verifier : Text) (keep : Option SessionId) (r : SessionRequest)
  | redeeming (user : UserId) (cred : BearerCredential) (accounts : Table UserId User)

inductive CredentialEvent
  | session (ev : RevocationEvent)
  | reset (user : UserId)
  | taken (key : PendingKey)
  | opened (user : UserId) (cred : BearerCredential)
  | minted (user : UserId)
  | remembered (user : UserId)
  | forgotten (user : UserId)
  | lapsed (key : PendingKey)

open CredentialRequest

def CredentialRequest.asSession : CredentialRequest → SessionRequest
  | session r | resetting _ _ r => r
  | redeeming _ _ accounts => .walking ∅ accounts

/-- A session is answered for a stale refresh token. -/
def CredentialStore.BreachedBy (svc : CredentialService) (s : CredentialStore) :
    RevocationEvent → Prop
  | .served (.rotate token _ _) (some _) => ∃ id row,
    s.revocation.db.findSession (svc.sessions.hashRefreshToken token) = some (id, row) ∧
      .refresh id ∈ s.stale
  | _ => False

inductive CredentialRead (svc : CredentialService) :
    CredentialRequest → CredentialStore → CredentialRequest → Prop
  | session {s : CredentialStore} (r r' : SessionRequest) (hread : SessionRead r s.revocation r') :
      CredentialRead svc (session r) s (session r')
  | reset {s : CredentialStore} (call : PasswordReset) (password : Text) (user : UserId)
      (keep : Option SessionId) (hgate : call.gate svc s.revocation.db = some (user, keep))
      (husable : UsablePassword password) :
      CredentialRead svc (session .idle) s (resetting (svc.hashPassword password) keep
        (.revoking user (s.revocation.db.calledFor user keep)
          (s.revocation.db.unrevokedOf user keep) ∅))
  | resume {s : CredentialStore} (verifier : Text) (keep : Option SessionId) (user user' : UserId)
      (seen seen' : Set SessionId) (remaining held remaining' held' : Finset SessionId)
      (hread : SessionRead (.revoking user seen remaining held) s.revocation
        (.revoking user' seen' remaining' held')) :
      CredentialRead svc (resetting verifier keep (.revoking user seen remaining held)) s
        (resetting verifier keep (.revoking user' seen' remaining' held'))
  | cookie {s : CredentialStore} (value : Text) (id : DeviceId) (row : RememberedDevice)
      (account : User) (now : Instant)
      (hfind : (s.revocation.db.devices.find fun _ d => d.tokenHash = svc.hashCookie value) =
        some (id, row))
      (hexpiry : now < row.expiresAt) (haccount : s.revocation.db.users.get row.userId = some account)
      (hstatus : account.status.admitted = true) :
      CredentialRead svc (session .idle) s (redeeming row.userId (.device id) s.revocation.db.users)
  | rollback {s : CredentialStore} (m : CredentialRequest) : CredentialRead svc m s (session .idle)

/-- The commits, and the writes to the cache. Redeeming a pending credential takes it out
first; a device of an administrator only yields a pending credential. The last four stand for
the other doors: a first factor that owes the second one, a login that remembers the device,
the revocation of the devices, and a key that lapses. -/
inductive CredentialCommit (svc : CredentialService) :
    CredentialRequest → CredentialStore → CredentialEvent → CredentialRequest → CredentialStore →
      Prop
  | session {s : CredentialStore} (r r' : SessionRequest) (ev : RevocationEvent)
      (revocation : RevocationStore)
      (hcommit : SessionCommit svc.sessions r s.revocation ev r' revocation)
      (hdevices : revocation.db.devices = s.revocation.db.devices) :
      CredentialCommit svc (session r) s (.session ev) (session r')
        { s with revocation := revocation, breached := s.breached ∨ s.BreachedBy svc ev }
  | reset {s : CredentialStore} (verifier : Text) (keep : Option SessionId) (user : UserId)
      (seen : Set SessionId) (held : Finset SessionId) (now : Instant) (row : User)
      (hget : s.revocation.db.users.get user = some row) :
      CredentialCommit svc (resetting verifier keep (.revoking user seen ∅ held)) s (.reset user)
        (session .idle)
        { s with
          revocation :=
            ⟨{ s.revocation.db.revokeRows held now with
              users := s.revocation.db.users.put user { row with passwordHash := some verifier } },
              s.revocation.dead ∪ seen⟩
          stale := s.stale ∪ {cred | s.owner cred = some user ∨
            ∃ id ∈ s.revocation.db.calledFor user keep, cred = .refresh id} }
  | taken {s : CredentialStore} (key : PendingKey) (user : UserId)
      (hget : s.pending.get key = some user) :
      CredentialCommit svc (session .idle) s (.taken key)
        (redeeming user (.pending key) s.revocation.db.users)
        { s with pending := s.pending.remove key }
  | opened {s : CredentialStore} (user : UserId) (cred : BearerCredential)
      (accounts : Table UserId User) (row : User) (fresh : Fresh) (now : Instant)
      (tokens : SessionTokens) (revocation : RevocationStore)
      (hget : accounts.get user = some row) (hopens : cred.Opens row)
      (hcommit : SessionCommit svc.sessions (.walking ∅ accounts) s.revocation
        (.served (.issue user row fresh now) (some tokens)) .idle revocation)
      (hdevices : revocation.db.devices = s.revocation.db.devices) :
      CredentialCommit svc (redeeming user cred accounts) s (.opened user cred) (session .idle)
        { s with revocation := revocation, breached := s.breached ∨ cred ∈ s.stale }
  | minted {s : CredentialStore} (user : UserId) (id : DeviceId) (accounts : Table UserId User)
      (row : User) (key : PendingKey) (hget : accounts.get user = some row)
      (hrole : row.role = .admin) (hfresh : s.owner (.pending key) = none) :
      CredentialCommit svc (redeeming user (.device id) accounts) s (.minted user) (session .idle)
        { s with
          pending := s.pending.put key user
          owner := Function.update s.owner (.pending key) (some user)
          stale := s.stale ∪ {cred | cred = .pending key ∧ .device id ∈ s.stale} }
  | firstFactor {s : CredentialStore} (user : UserId) (key : PendingKey)
      (hfresh : s.owner (.pending key) = none) :
      CredentialCommit svc (session .idle) s (.minted user) (session .idle)
        { s with
          pending := s.pending.put key user
          owner := Function.update s.owner (.pending key) (some user) }
  | remembered {s : CredentialStore} (id : DeviceId) (row : RememberedDevice)
      (hfresh : s.owner (.device id) = none) :
      CredentialCommit svc (session .idle) s (.remembered row.userId) (session .idle)
        { s with
          revocation := { s.revocation with
            db := { s.revocation.db with devices := s.revocation.db.devices.put id row } }
          owner := Function.update s.owner (.device id) (some row.userId) }
  | forgotten {s : CredentialStore} (user : UserId) :
      CredentialCommit svc (session .idle) s (.forgotten user) (session .idle)
        { s with
          revocation := { s.revocation with
            db := { s.revocation.db with
              devices := s.revocation.db.devices.deleteWhere fun _ d => d.userId = user } } }
  | lapsed {s : CredentialStore} (key : PendingKey) :
      CredentialCommit svc (session .idle) s (.lapsed key) (session .idle)
        { s with pending := s.pending.remove key }

def credentialProtocol (svc : CredentialService) :
    Protocol CredentialStore SessionId CredentialRequest CredentialEvent where
  locks m := m.asSession.locks
  known _ _ := True
  start m := m = session .idle
  read := CredentialRead svc
  commit := CredentialCommit svc

structure CredentialStore.Initial (s : CredentialStore) : Prop where
  sessions : s.revocation.Initial
  devices : s.revocation.db.devices = .empty
  pending : s.pending = .empty
  owner : ∀ cred, s.owner cred = none
  stale : s.stale = ∅
  breached : ¬ s.breached

def credentialSystem (svc : CredentialService) (ι : Type*) [DecidableEq ι] :
    System (Config ι CredentialStore CredentialRequest) (Move ι CredentialEvent) :=
  (credentialProtocol svc).system ι CredentialStore.Initial

def sessionsOf {ι : Type*} (c : Config ι CredentialStore CredentialRequest) :
    Config ι RevocationStore SessionRequest :=
  ⟨c.store.revocation, fun i => (c.proc i).asSession⟩

/-- The condition on a step. A rotation commits only when the revocations under way have
reached its row; a reset commits when the account has no session that its revocation was not
called for, no remembered device and no pending credential, stored or being redeemed. -/
def ResetsClean (svc : CredentialService) {ι : Type*}
    (c : Config ι CredentialStore CredentialRequest) (m : Move ι CredentialEvent) : Prop :=
  match m.2, c.proc m.1 with
  | some (.session ev), _ => RotatesReached svc.sessions (sessionsOf c) (m.1, some ev)
  | some (.reset user), resetting _ keep (.revoking _ seen _ _) =>
    c.store.revocation.db.calledFor user keep ⊆ seen ∧
    (∀ id row, c.store.revocation.db.devices.get id = some row → row.userId ≠ user) ∧
    (∀ key owner, c.store.pending.get key = some owner → owner ≠ user) ∧
    ∀ j cred accounts, c.proc j ≠ redeeming user cred accounts
  | _, _ => True

section Refinement

variable {svc : CredentialService} {ι : Type*} [DecidableEq ι]
  {c : Config ι CredentialStore CredentialRequest}

theorem sessionsOf_update (s : CredentialStore) (i : ι) (m : CredentialRequest) :
    sessionsOf ⟨s, Function.update c.proc i m⟩ =
      ⟨s.revocation, Function.update (sessionsOf c).proc i m.asSession⟩ := by
  unfold sessionsOf
  congr 1
  funext j
  by_cases hj : j = i
  · subst hj
    simp
  · simp [hj]

/-- A move that leaves the sessions and the session request as they are. -/
theorem sessionsOf_unchanged {s : CredentialStore} {i : ι} {m : CredentialRequest}
    (hstore : s.revocation = c.store.revocation) (hproc : m.asSession = (c.proc i).asSession) :
    sessionsOf ⟨s, Function.update c.proc i m⟩ = sessionsOf c := by
  rw [sessionsOf_update, hstore, hproc]
  unfold sessionsOf
  congr 1
  exact Function.update_eq_self i _

/-- The sessions under the resets move as they do on their own. -/
theorem credential_refines (svc : CredentialService) :
    ((credentialSystem svc ι).guarded (ResetsClean svc)).Refines
      ((revocationSystem svc.sessions ι).guarded (RotatesReached svc.sessions)) sessionsOf := by
  constructor
  · rintro c ⟨hstore, hstart⟩
    refine ⟨hstore.sessions, fun i => ?_⟩
    have hidle : c.proc i = session .idle := hstart i
    unfold sessionsOf
    dsimp only
    rw [hidle]
    rfl
  · intro c mv c' _ _ hstep
    obtain ⟨hstep, hclean⟩ := hstep
    cases hstep with
    | read i m' hread hfree =>
      rw [sessionsOf_update]
      have hfree' : (revocationProtocol svc.sessions).Free (sessionsOf c) i m'.asSession := hfree
      have hmove (hsession : SessionRead (c.proc i).asSession c.store.revocation m'.asSession) :
          ∃ b, ((revocationSystem svc.sessions ι).guarded (RotatesReached svc.sessions)).step
            (sessionsOf c) b ⟨c.store.revocation,
              Function.update (sessionsOf c).proc i m'.asSession⟩ :=
        ⟨(i, none), Protocol.Step.read (P := revocationProtocol svc.sessions) (sessionsOf c) i
          m'.asSession hsession hfree', trivial⟩
      right
      apply hmove
      have hown : CredentialRead svc (c.proc i) c.store m' := hread
      generalize c.proc i = m at hown
      cases hown with
      | session r r' hr => exact hr
      | reset call password user keep hgate husable => exact .snapshot user keep
      | resume verifier keep user user' seen seen' remaining held remaining' held' hr => exact hr
      | cookie => exact .begin
      | rollback => exact .rollback _
    | commit i ev m' s' hcommit hfree =>
      have hfree' : (revocationProtocol svc.sessions).Free (sessionsOf c) i m'.asSession := hfree
      have hcommitted {ev' : RevocationEvent}
          (hsession : SessionCommit svc.sessions (c.proc i).asSession c.store.revocation ev'
            m'.asSession s'.revocation)
          (hreached : RotatesReached svc.sessions (sessionsOf c) (i, some ev')) :
          ∃ b, ((revocationSystem svc.sessions ι).guarded (RotatesReached svc.sessions)).step
            (sessionsOf c) b (sessionsOf ⟨s', Function.update c.proc i m'⟩) := by
        rw [sessionsOf_update]
        exact ⟨(i, some ev'), Protocol.Step.commit (P := revocationProtocol svc.sessions)
          (sessionsOf c) i ev' m'.asSession s'.revocation hsession hfree', hreached⟩
      have hread (hsession : SessionRead (c.proc i).asSession c.store.revocation m'.asSession)
          (hstore : s'.revocation = c.store.revocation) :
          ∃ b, ((revocationSystem svc.sessions ι).guarded (RotatesReached svc.sessions)).step
            (sessionsOf c) b (sessionsOf ⟨s', Function.update c.proc i m'⟩) := by
        rw [sessionsOf_update, hstore]
        exact ⟨(i, none), Protocol.Step.read (P := revocationProtocol svc.sessions) (sessionsOf c) i
          m'.asSession hsession hfree', trivial⟩
      unfold ResetsClean at hclean
      dsimp only at hclean
      have hcommit : CredentialCommit svc (c.proc i) c.store ev m' s' := hcommit
      generalize hproc : c.proc i = m at hcommit hcommitted hread hclean
      cases hcommit with
      | session r r' ev revocation hsession hdevices => exact Or.inr (hcommitted hsession hclean)
      | reset verifier keep user seen held now row hget =>
        exact Or.inr (hcommitted (.revoked user seen held now _ rfl) trivial)
      | taken key user hget => exact Or.inr (hread .begin rfl)
      | opened user cred accounts row fresh now tokens revocation hget hopens hsession hdevices =>
        exact Or.inr (hcommitted hsession trivial)
      | minted => exact Or.inr (hread (.rollback _) rfl)
      | firstFactor => exact Or.inl (sessionsOf_unchanged rfl (by rw [hproc]))
      | remembered id row hfresh => exact Or.inr (hcommitted (.elsewhere _ rfl) trivial)
      | forgotten user => exact Or.inr (hcommitted (.elsewhere _ rfl) trivial)
      | lapsed => exact Or.inl (sessionsOf_unchanged rfl (by rw [hproc]))

end Refinement

section Invariant

variable {svc : CredentialService} {ι : Type*} {c : Config ι CredentialStore CredentialRequest}
  {s s' : CredentialStore}

/-- Devices, pending credentials and requests that redeem one belong to the account that the
credential was issued to. -/
structure Issued (s : CredentialStore) : Prop where
  device : ∀ id row, s.revocation.db.devices.get id = some row →
    s.owner (.device id) = some row.userId
  pending : ∀ key user, s.pending.get key = some user → s.owner (.pending key) = some user
  refresh : ∀ id, s.owner (.refresh id) = none

structure Spent (c : Config ι CredentialStore CredentialRequest) (cred : BearerCredential) :
    Prop where
  issued : c.store.owner cred ≠ none
  device : ∀ id, cred = .device id → c.store.revocation.db.devices.get id = none
  pending : ∀ key, cred = .pending key → c.store.pending.get key = none
  redeemed : ∀ j user accounts, c.proc j ≠ redeeming user cred accounts

structure CredentialInv (c : Config ι CredentialStore CredentialRequest) : Prop where
  issued : Issued c.store
  redeems : ∀ i user cred accounts, c.proc i = redeeming user cred accounts →
    c.store.owner cred = some user
  stale : ∀ cred ∈ c.store.stale,
    (∃ id ∈ c.store.revocation.dead, cred = .refresh id) ∨ Spent c cred
  clean : ¬ c.store.breached

theorem CredentialInv.redeeming_notMem_stale (h : CredentialInv c) {i : ι} {user : UserId}
    {cred : BearerCredential} {accounts : Table UserId User}
    (hproc : c.proc i = redeeming user cred accounts) : cred ∉ c.store.stale := by
  intro hstale
  rcases h.stale cred hstale with ⟨id, _, rfl⟩ | hspent
  · have howner := h.redeems i user _ accounts hproc
    rw [h.issued.refresh id] at howner
    cases howner
  · exact hspent.redeemed i user accounts hproc

theorem CredentialInv.device_notMem_stale (h : CredentialInv c) {id : DeviceId}
    {row : RememberedDevice} (hget : c.store.revocation.db.devices.get id = some row) :
    .device id ∉ c.store.stale := by
  intro hstale
  rcases h.stale _ hstale with ⟨k, _, hk⟩ | hspent
  · cases hk
  · rw [hspent.device id rfl] at hget
    cases hget

theorem CredentialInv.pending_notMem_stale (h : CredentialInv c) {key : PendingKey}
    {user : UserId} (hget : c.store.pending.get key = some user) :
    .pending key ∉ c.store.stale := by
  intro hstale
  rcases h.stale _ hstale with ⟨k, _, hk⟩ | hspent
  · cases hk
  · rw [hspent.pending key rfl] at hget
    cases hget

variable [DecidableEq ι]

/-- A move that issues nothing and makes nothing stale keeps the invariant when what it leaves
to present was there before. -/
theorem CredentialInv.move (h : CredentialInv c) {i : ι} {m' : CredentialRequest}
    (hdevices : ∀ id row, s'.revocation.db.devices.get id = some row →
      c.store.revocation.db.devices.get id = some row)
    (hpending : ∀ key user, s'.pending.get key = some user → c.store.pending.get key = some user)
    (howner : s'.owner = c.store.owner) (hstale : s'.stale = c.store.stale)
    (hdead : c.store.revocation.dead ⊆ s'.revocation.dead) (hclean : ¬ s'.breached)
    (hredeems : ∀ user cred accounts, m' = redeeming user cred accounts →
      c.store.owner cred = some user ∧ cred ∉ c.store.stale) :
    CredentialInv ⟨s', Function.update c.proc i m'⟩ := by
  have hrequests : ∀ j user cred accounts,
      Function.update c.proc i m' j = redeeming user cred accounts →
      c.store.owner cred = some user ∧
        (c.proc j = redeeming user cred accounts ∨ cred ∉ c.store.stale) := by
    intro j user cred accounts hj
    by_cases hji : j = i
    · subst hji
      rw [Function.update_self] at hj
      obtain ⟨hissued, hfresh⟩ := hredeems user cred accounts hj
      exact ⟨hissued, Or.inr hfresh⟩
    · rw [Function.update_of_ne hji] at hj
      exact ⟨h.redeems j user cred accounts hj, Or.inl hj⟩
  refine ⟨⟨fun id row hget => ?_, fun key user hget => ?_, fun id => ?_⟩,
    fun j user cred accounts hj => ?_, fun cred hcred => ?_, hclean⟩
  · rw [howner]
    exact h.issued.device id row (hdevices id row hget)
  · rw [howner]
    exact h.issued.pending key user (hpending key user hget)
  · rw [howner]
    exact h.issued.refresh id
  · dsimp only
    rw [howner]
    exact (hrequests j user cred accounts hj).1
  · have hold : cred ∈ c.store.stale := hstale ▸ hcred
    rcases h.stale cred hold with ⟨id, hid, heq⟩ | hspent
    · exact Or.inl ⟨id, hdead hid, heq⟩
    · right
      refine ⟨?_, fun id hid => ?_, fun key hkey => ?_, fun j user accounts hj => ?_⟩
      · dsimp only
        rw [howner]
        exact hspent.issued
      · by_contra hsome
        obtain ⟨row, hget⟩ := Option.ne_none_iff_exists'.mp hsome
        have hnone := hspent.device id hid
        rw [hdevices id row hget] at hnone
        cases hnone
      · by_contra hsome
        obtain ⟨user, hget⟩ := Option.ne_none_iff_exists'.mp hsome
        have hnone := hspent.pending key hkey
        rw [hpending key user hget] at hnone
        cases hnone
      · rcases (hrequests j user cred accounts hj).2 with hbefore | hfresh
        · exact hspent.redeemed j user accounts hbefore
        · exact hfresh hold

theorem CredentialInv.issue (h : CredentialInv c) {i : ι} {new : BearerCredential} {user : UserId}
    {devices : Table DeviceId RememberedDevice} {pending : Table PendingKey UserId}
    (hfresh : c.store.owner new = none) (hnew : ∀ id, new ≠ .refresh id)
    (hdevices : ∀ id row, devices.get id = some row →
      c.store.revocation.db.devices.get id = some row ∨ (new = .device id ∧ row.userId = user))
    (hpending : ∀ key owner, pending.get key = some owner →
      c.store.pending.get key = some owner ∨ (new = .pending key ∧ owner = user)) :
    CredentialInv ⟨{ c.store with
        revocation := { c.store.revocation with
          db := { c.store.revocation.db with devices := devices } }
        pending := pending
        owner := Function.update c.store.owner new (some user) },
      Function.update c.proc i (session .idle)⟩ := by
  have hkeep {cred : BearerCredential} {u : UserId} (hu : c.store.owner cred = some u) :
      Function.update c.store.owner new (some user) cred = some u := by
    rw [Function.update_of_ne, hu]
    rintro rfl
    rw [hfresh] at hu
    cases hu
  have hback : ∀ j u cred accounts,
      Function.update c.proc i (session .idle) j = redeeming u cred accounts →
      c.proc j = redeeming u cred accounts := by
    intro j u cred accounts hj
    by_cases hji : j = i
    · subst hji
      rw [Function.update_self] at hj
      cases hj
    · rwa [Function.update_of_ne hji] at hj
  refine ⟨⟨fun id row hget => ?_, fun key owner hget => ?_, fun id => ?_⟩,
    fun j u cred accounts hj => ?_, fun cred hcred => ?_, h.clean⟩
  · rcases hdevices id row hget with hold | ⟨rfl, rfl⟩
    · exact hkeep (h.issued.device id row hold)
    · exact Function.update_self ..
  · rcases hpending key owner hget with hold | ⟨rfl, rfl⟩
    · exact hkeep (h.issued.pending key owner hold)
    · exact Function.update_self ..
  · exact (Function.update_of_ne (Ne.symm (hnew id)) ..).trans (h.issued.refresh id)
  · exact hkeep (h.redeems j u cred accounts (hback j u cred accounts hj))
  · rcases h.stale cred hcred with hdead | hspent
    · exact Or.inl hdead
    · right
      have hne : cred ≠ new := by
        rintro rfl
        exact hspent.issued hfresh
      refine ⟨?_, fun id hid => ?_, fun key hkey => ?_, fun j u accounts hj => ?_⟩
      · dsimp only
        rw [Function.update_of_ne hne]
        exact hspent.issued
      · by_contra hsome
        obtain ⟨row, hget⟩ := Option.ne_none_iff_exists'.mp hsome
        rcases hdevices id row hget with hold | ⟨heq, _⟩
        · have hnone := hspent.device id hid
          rw [hold] at hnone
          cases hnone
        · exact hne (hid.trans heq.symm)
      · by_contra hsome
        obtain ⟨owner, hget⟩ := Option.ne_none_iff_exists'.mp hsome
        rcases hpending key owner hget with hold | ⟨heq, _⟩
        · have hnone := hspent.pending key hkey
          rw [hold] at hnone
          cases hnone
        · exact hne (hkey.trans heq.symm)
      · exact hspent.redeemed j u accounts (hback j u cred accounts hj)

theorem CredentialInv.read (h : CredentialInv c) {i : ι} {m' : CredentialRequest}
    (hread : CredentialRead svc (c.proc i) c.store m') :
    CredentialInv ⟨c.store, Function.update c.proc i m'⟩ := by
  refine h.move (fun _ _ hget => hget) (fun _ _ hget => hget) rfl rfl (fun _ hid => hid) h.clean ?_
  intro user cred accounts hm
  generalize c.proc i = m at hread
  cases hread with
  | cookie value id row account now hfind hexpiry haccount hstatus =>
    obtain ⟨rfl, rfl, _⟩ := redeeming.inj hm
    have hget := (Table.find_some hfind).1
    exact ⟨h.issued.device id row hget, h.device_notMem_stale hget⟩
  | _ => cases hm

/-- A reset that finds no device and no pending credential makes only dead sessions and spent
credentials stale. -/
theorem CredentialInv.reset (h : CredentialInv c) {i : ι} {verifier : Text}
    {keep : Option SessionId} {user : UserId} {seen : Set SessionId} {held : Finset SessionId}
    {now : Instant} {row : User}
    (hseen : c.store.revocation.db.calledFor user keep ⊆ seen)
    (hdevices : ∀ id row, c.store.revocation.db.devices.get id = some row → row.userId ≠ user)
    (hpending : ∀ key owner, c.store.pending.get key = some owner → owner ≠ user)
    (hredeems : ∀ j cred accounts, c.proc j ≠ redeeming user cred accounts) :
    CredentialInv ⟨{ c.store with
        revocation :=
          ⟨{ c.store.revocation.db.revokeRows held now with
            users := c.store.revocation.db.users.put user
              { row with passwordHash := some verifier } }, c.store.revocation.dead ∪ seen⟩
        stale := c.store.stale ∪ {cred | c.store.owner cred = some user ∨
          ∃ id ∈ c.store.revocation.db.calledFor user keep, cred = .refresh id} },
      Function.update c.proc i (session .idle)⟩ := by
  have hback : ∀ j u cred accounts,
      Function.update c.proc i (session .idle) j = redeeming u cred accounts →
      c.proc j = redeeming u cred accounts := by
    intro j u cred accounts hj
    by_cases hji : j = i
    · subst hji
      rw [Function.update_self] at hj
      cases hj
    · rwa [Function.update_of_ne hji] at hj
  refine ⟨⟨h.issued.device, h.issued.pending, h.issued.refresh⟩,
    fun j u cred accounts hj => h.redeems j u cred accounts (hback j u cred accounts hj),
    fun cred hcred => ?_, h.clean⟩
  rcases hcred with hold | hissued | ⟨id, hid, rfl⟩
  · rcases h.stale cred hold with ⟨id, hid, heq⟩ | hspent
    · exact Or.inl ⟨id, Or.inl hid, heq⟩
    · exact Or.inr ⟨hspent.issued, hspent.device, hspent.pending,
        fun j u accounts hj => hspent.redeemed j u accounts (hback j u cred accounts hj)⟩
  · right
    refine ⟨fun hnone => ?_, fun id hid => ?_, fun key hkey => ?_, fun j u accounts hj => ?_⟩
    · rw [hissued] at hnone
      cases hnone
    · by_contra hsome
      obtain ⟨device, hget⟩ := Option.ne_none_iff_exists'.mp hsome
      have howner := h.issued.device id device hget
      rw [← hid, hissued, Option.some.injEq] at howner
      exact hdevices id device hget howner.symm
    · by_contra hsome
      obtain ⟨owner, hget⟩ := Option.ne_none_iff_exists'.mp hsome
      have howner := h.issued.pending key owner hget
      rw [← hkey, hissued, Option.some.injEq] at howner
      exact hpending key owner hget howner.symm
    · have hproc := hback j u cred accounts hj
      have howner := h.redeems j u cred accounts hproc
      rw [hissued, Option.some.injEq] at howner
      exact hredeems j cred accounts (howner ▸ hproc)
  · exact Or.inl ⟨id, Or.inr (hseen hid), rfl⟩

theorem CredentialInv.commit (h : CredentialInv c)
    (hkept : RevocationKept svc.sessions (sessionsOf c)) {i : ι} {ev : CredentialEvent}
    {m m' : CredentialRequest} (hproc : c.proc i = m)
    (hcommit : CredentialCommit svc m c.store ev m' s')
    (hclean : ResetsClean svc c (i, some ev)) :
    CredentialInv ⟨s', Function.update c.proc i m'⟩ := by
  unfold ResetsClean at hclean
  dsimp only at hclean
  rw [hproc] at hclean
  cases hcommit with
  | session r r' ev revocation hsession hdevices =>
    have hdead : c.store.revocation.dead ⊆ revocation.dead := by
      cases hsession with
      | revoked => exact fun _ hid => Or.inl hid
      | _ => exact fun _ hid => hid
    refine h.move (fun id row hget => by rwa [hdevices] at hget) (fun _ _ hget => hget) rfl rfl
      hdead ?_ (fun _ _ _ hm => (by cases hm))
    rintro (hbefore | hbreach)
    · exact h.clean hbefore
    · -- Only a rotation or a replay can answer for a stale token, and its session is dead.
      cases ev with
      | served call answer =>
        cases call with
        | rotate token fresh now =>
          cases answer with
          | some tokens =>
            obtain ⟨id, row, hfind, hid⟩ := hbreach
            rcases h.stale _ hid with ⟨k, hk, heq⟩ | hspent
            · cases heq
              exact hkept.inv.commit_notMem_dead hsession hfind hk
            · exact hspent.issued (h.issued.refresh id)
          | none => exact hbreach
        | _ => exact hbreach
      | _ => exact hbreach
  | reset verifier keep user seen held now row hget =>
    exact h.reset hclean.1 hclean.2.1 hclean.2.2.1 hclean.2.2.2
  | taken key user hget =>
    refine h.move (fun _ _ hget => hget) (fun _ _ hget => Table.get_of_remove hget) rfl rfl
      (fun _ hid => hid) h.clean fun u cred accounts hm => ?_
    obtain ⟨rfl, rfl, _⟩ := redeeming.inj hm
    exact ⟨h.issued.pending key user hget, h.pending_notMem_stale hget⟩
  | opened user cred accounts row fresh now tokens revocation hget hopens hsession hdevices =>
    have hdead : c.store.revocation.dead ⊆ revocation.dead := by
      cases hsession
      exact fun _ hid => hid
    refine h.move (fun id row hget => by rwa [hdevices] at hget) (fun _ _ hget => hget) rfl rfl
      hdead ?_ (fun _ _ _ hm => (by cases hm))
    rintro (hbefore | hstale)
    · exact h.clean hbefore
    · exact h.redeeming_notMem_stale hproc hstale
  | minted user id accounts row key hget hrole hfresh =>
    have hnot := h.redeeming_notMem_stale hproc
    have hstale : c.store.stale ∪ {cred | cred = .pending key ∧ .device id ∈ c.store.stale} =
        c.store.stale := by
      ext cred
      constructor
      · rintro (hold | ⟨_, hdevice⟩)
        · exact hold
        · exact absurd hdevice hnot
      · exact fun hold => Or.inl hold
    rw [hstale]
    refine h.issue hfresh (fun _ heq => (by cases heq)) (fun _ _ hget => Or.inl hget) ?_
    intro k owner hget
    rcases Table.get_put_eq_some hget with ⟨rfl, rfl⟩ | ⟨_, hold⟩
    · exact Or.inr ⟨rfl, rfl⟩
    · exact Or.inl hold
  | firstFactor user key hfresh =>
    refine h.issue hfresh (fun _ heq => (by cases heq)) (fun _ _ hget => Or.inl hget) ?_
    intro k owner hget
    rcases Table.get_put_eq_some hget with ⟨rfl, rfl⟩ | ⟨_, hold⟩
    · exact Or.inr ⟨rfl, rfl⟩
    · exact Or.inl hold
  | remembered id row hfresh =>
    refine h.issue hfresh (fun _ heq => (by cases heq)) ?_ (fun _ _ hget => Or.inl hget)
    intro k device hget
    rcases Table.get_put_eq_some hget with ⟨rfl, rfl⟩ | ⟨_, hold⟩
    · exact Or.inr ⟨rfl, rfl⟩
    · exact Or.inl hold
  | forgotten user =>
    exact h.move (fun _ _ hget => (Table.get_deleteWhere_eq_some.mp hget).1) (fun _ _ hget => hget)
      rfl rfl (fun _ hid => hid) h.clean (fun _ _ _ hm => (by cases hm))
  | lapsed key =>
    exact h.move (fun _ _ hget => hget) (fun _ _ hget => Table.get_of_remove hget) rfl rfl
      (fun _ hid => hid) h.clean (fun _ _ _ hm => (by cases hm))

/-- In every run whose resets find the account without remembered devices and pending
credentials, no session is opened from a credential older than a reset of its account. -/
theorem reset_kills_credentials
    (hc : ((credentialSystem svc ι).guarded (ResetsClean svc)).Reach c) : ¬ c.store.breached := by
  have hinv : CredentialInv c := by
    induction hc with
    | @init c hinit =>
      have hidle : ∀ i, c.proc i = session .idle := hinit.2
      refine ⟨⟨fun id row hget => ?_, fun key user hget => ?_, fun id => hinit.1.owner _⟩,
        fun i user cred accounts hi => ?_, fun cred hcred => ?_, hinit.1.breached⟩
      · rw [hinit.1.devices, Table.get_empty] at hget
        cases hget
      · rw [hinit.1.pending, Table.get_empty] at hget
        cases hget
      · rw [hidle i] at hi
        cases hi
      · rw [hinit.1.stale] at hcred
        exact hcred.elim
    | step hreach hstep ih =>
      have hkept := revocationKept_reach ((credential_refines svc).reach hreach)
      obtain ⟨hstep, hclean⟩ := hstep
      cases hstep with
      | read i m' hread hfree => exact ih.read hread
      | commit i ev m' s' hcommit hfree => exact ih.commit hkept rfl hcommit hclean
  exact hinv.clean

end Invariant

section Example

def plainResets : CredentialService := ⟨plainSessions, id, id⟩

def unissued : CredentialStore where
  revocation := ⟨held, ∅⟩
  pending := .empty
  owner _ := none
  stale := ∅
  breached := False

theorem unissued_initial : unissued.Initial :=
  ⟨⟨rfl, rfl⟩, rfl, rfl, fun _ => rfl, rfl, fun h => h⟩

def newPassword : Text := List.replicate 10 'n'

theorem newPassword_usable : UsablePassword newPassword := by decide

def deviceRow : RememberedDevice := ⟨1, ['d'], 1000, none, 0⟩

/-- The account remembers a device, its password is reset by a link, and the cookie of the
device opens a session. -/
theorem device_survives_reset : ¬ ∀ c : Config Bool CredentialStore CredentialRequest,
    (credentialSystem plainResets Bool).Reach c → ¬ c.store.breached := by
  intro hall
  have hstart := Protocol.reaches_start (P := credentialProtocol plainResets)
    (G := fun _ _ => True) unissued_initial (m := session .idle) (n := session .idle) rfl rfl
  have hremembered := hstart.commit_left (.remembered 1 deviceRow rfl) (fun _ h => h.elim) trivial
  have hresetting := hremembered.read_left
    (.reset (.consumePasswordReset 1) newPassword 1 none rfl newPassword_usable)
    (fun _ _ h => h.elim) trivial
  have hreset := hresetting.commit_left (.reset newPassword none 1 _ ∅ 5 holder rfl)
    (fun _ h => h.elim) trivial
  have hfind {db : Db} (hdevices : db.devices = Table.empty.put 1 deviceRow) :
      (db.devices.find fun _ d => d.tokenHash = plainResets.hashCookie ['d']) =
        some (1, deviceRow) := by
    refine Table.find_eq (by rw [hdevices]; rfl) rfl fun k r hget _ => ?_
    rw [hdevices] at hget
    rcases Table.get_put_eq_some hget with ⟨heq, _⟩ | ⟨_, hold⟩
    · exact heq
    · rw [Table.get_empty] at hold
      cases hold
  have hredeeming := hreset.read_left
    (.cookie ['d'] 1 deviceRow { holder with passwordHash := some newPassword } 6 (hfind rfl)
      (by decide) rfl rfl) (fun _ h => absurd h (Finset.notMem_empty _)) trivial
  have hopened := hredeeming.commit_left
    (.opened 1 (.device 1) _ { holder with passwordHash := some newPassword } ⟨1, ['r'], 0⟩ 6 _ _ rfl
      ⟨rfl, by decide⟩ (.served ∅ _ _ _ _ (serve_issue_empty rfl 1 _ ⟨1, ['r'], 0⟩ 6)
        fun id row h => (by cases h)) rfl) (fun _ h => h.elim) trivial
  exact hall _ (System.Reach.of_guarded hopened) (Or.inr (Or.inr (Or.inl rfl)))

/-- A reset of an account with one session and nothing else leaves the session stale and
nothing opened from it. -/
theorem session_stale_after_reset : ∃ c : Config Bool CredentialStore CredentialRequest,
    ((credentialSystem plainResets Bool).guarded (ResetsClean plainResets)).Reach c ∧
      .refresh 1 ∈ c.store.stale ∧ ¬ c.store.breached := by
  have hstart := Protocol.reaches_start (P := credentialProtocol plainResets)
    (G := ResetsClean plainResets) unissued_initial (m := session .idle) (n := session .idle) rfl rfl
  have hbegun := hstart.read_left (.session _ _ .begin)
    (fun _ h => absurd h (Finset.notMem_empty _)) trivial
  have hopened := hbegun.commit_left
    (.session _ _ _ _ (.served ∅ held.users (.issue 1 holder ⟨1, ['r'], 0⟩ 0) _ signedIn
      (serve_issue_empty rfl 1 holder ⟨1, ['r'], 0⟩ 0) fun id row h => (by cases h)) rfl)
    (fun _ h => h.elim) trivial
  have hresetting := hopened.read_left
    (.reset (.consumePasswordReset 1) newPassword 1 none rfl newPassword_usable)
    (fun _ _ h => h.elim) trivial
  have hupdated := hresetting.read_left
    (.resume newPassword none 1 1 _ _ {1} ∅ _ _
      (.update 1 _ {1} ∅ 1 _ (Finset.mem_singleton_self _) rfl rfl)) (fun _ _ h => h.elim) trivial
  have hreset := hupdated.commit_left (.reset newPassword none 1 _ _ 5 holder rfl)
    (fun _ h => h.elim) ⟨fun _ h => h, fun _ _ h => (by cases h), fun _ _ h => (by cases h),
      fun j _ _ h => (by cases j <;> cases h)⟩
  refine ⟨_, hreset, ?_, reset_kills_credentials hreset⟩
  exact Or.inr (Or.inr ⟨1, signedIn_calledFor, rfl⟩)

end Example

end CampusQuest.Identity
