import CampusQuest.AttemptMeter
import CampusQuest.CredentialReset
import CampusQuest.LoginCodes

/-!
The second factor of staff. Four first factors lead to it: the password, a code by e-mail, a
code by SMS and the cookie of a remembered device; the last three, and the password form of
the unified login, leave a pending credential in one of two domains. The legs share the
failure counter of the account, and each decides for itself whether to ask for the lock, to
count a wrong code and to clear the counter.
-/

namespace CampusQuest.Identity

open AttemptMeter Guards Locking Runs Tables

abbrev RecoveryId := ℕ

structure TotpCredential where
  secretEncrypted : Text
  confirmedAt : Option Instant
  deriving DecidableEq

structure RecoveryCode where
  userId : UserId
  codeHash : Text
  usedAt : Option Instant
  deriving DecidableEq

/-- The accounts, the login codes and the counters, with the second factors beside them. The
ghost `evaluated` counts the wrong second-factor codes since the last completed login of the
account or the last lapse of its counter. -/
structure FactorStore where
  codes : CodeStore
  credentials : Table UserId TotpCredential
  recovery : Table RecoveryId RecoveryCode
  devices : Table DeviceId RememberedDevice
  pending : Table PendingKey UserId
  evaluated : UserId → ℕ

/-- `verifyPassword` is false where the verifier raises, and judges recovery codes too. -/
structure FactorService where
  codes : CodeService
  verifyPassword : Text → Text → Bool
  decryptSecret : Text → Text
  verifyTotpCode : Text → Text → Instant → Bool
  hashCookie : Text → Text
  hashPending : Text → Text

/-- Where the second factor is presented: with the password, or with a pending credential. -/
inductive SecondLeg
  | password
  | pending (domain : PendingDomain)
  deriving DecidableEq, Repr

namespace FactorStore

variable (s : FactorStore)

def confirmedSecret (svc : FactorService) (user : UserId) : Option Text := do
  let credential ← s.credentials.get user
  if credential.confirmedAt = none then none
  else some (svc.decryptSecret credential.secretEncrypted)

def resolveDevice (svc : FactorService) (value : Text) (now : Instant) :
    Option (DeviceId × RememberedDevice) :=
  (s.devices.find fun _ d => d.tokenHash = svc.hashCookie value).filter fun d =>
    now < d.2.expiresAt

def AnyValidFor (svc : FactorService) (slots : List Text) (user : UserId) (now : Instant) : Prop :=
  ∃ value ∈ slots, ∃ d, s.resolveDevice svc value now = some d ∧ d.2.userId = user

def unusedCodes (user : UserId) : Finset RecoveryId :=
  s.recovery.keys.filter fun id =>
    (s.recovery.get id).any fun r => r.userId = user ∧ r.usedAt = none

def recordFailure (user : UserId) : FactorStore :=
  { s with codes := s.codes.recordFailure (some user) }

def resetFailures (user : UserId) : FactorStore :=
  { s with codes := s.codes.resetFailures (some user) }

def evaluate (user : UserId) : FactorStore :=
  { s with evaluated := Function.update s.evaluated user (s.evaluated user + 1) }

def complete (user : UserId) : FactorStore :=
  { s with evaluated := Function.update s.evaluated user 0 }

def mint (domain : PendingDomain) (digest : Text) (user : UserId) : FactorStore :=
  { s with pending := s.pending.put (domain, digest) user }

def useCode (now : Instant) : Option RecoveryId → FactorStore
  | none => s
  | some id =>
    { s with recovery := s.recovery.updateWhere (fun k _ => k = id) fun r =>
        { r with usedAt := some now } }

end FactorStore

/-- A request at work. `checked` is the counter as the request's own lock check read it, where
the leg makes one; `used` is the recovery code that matched. -/
inductive FactorRequest
  | code (r : CodeRequest)
  | password (user : UserId) (row : User) (checked : ℕ)
  | proven (user : UserId) (row : User) (checked : ℕ)
  | remembered (user : UserId)
  | taken (domain : PendingDomain) (user : UserId)
  | presenting (leg : SecondLeg) (user : UserId) (checked : Option ℕ) (secret : Text)
  | recovering (user : UserId) (checked : ℕ) (submitted : Text) (held : Finset RecoveryId)
  | owing (user : UserId)
  | verified (leg : SecondLeg) (user : UserId) (used : Option RecoveryId)
      (held : Finset RecoveryId)
  | clearing (user : UserId)
  | finishing (user : UserId)

open FactorRequest

namespace FactorRequest

/-- The challenges that the code arms lock, and the recovery codes read for update. -/
def locks : FactorRequest → ChallengeId ⊕ RecoveryId → Prop
  | code r, .inl id => r.locks id
  | recovering _ _ _ held, .inr id | verified _ _ _ held, .inr id => id ∈ held
  | _, _ => False

def checkedAt : FactorRequest → Option ℕ
  | password _ _ checked | proven _ _ checked | recovering _ checked _ _ => some checked
  | presenting _ _ checked _ => checked
  | _ => none

/-- A wrong code has been evaluated and waits to be counted. -/
def Owes : FactorRequest → UserId → Prop
  | owing user, u => user = u
  | _, _ => False

def Clears : FactorRequest → UserId → Prop
  | code (.cleared caller _ _), u => caller.user = some u
  | clearing user, u => user = u
  | _, _ => False

/-- A wrong code with a pending credential: the e-mail domain counts it, the staff domain
raises at once. -/
def afterWrong (user : UserId) : PendingDomain → FactorRequest
  | .email => owing user
  | .staffMobile => code .idle

end FactorRequest

inductive FactorEvent
  | abandoned
  | code (ev : CodeEvent)
  | failed (user : UserId)
  | minted (user : UserId)
  | taken (key : PendingKey)
  | evaluated (user : UserId)
  | recorded (user : UserId)
  | cleared (user : UserId)
  | completed (user : UserId)
  | reset (user : UserId)
  | lapsed (user : UserId)
  | elsewhere

def CodeChannel.domain : CodeChannel → PendingDomain
  | .email => .email
  | .mobile => .staffMobile

/-- The reads. The password form and the e-mail domain ask for the lock; neither the cookie
nor the staff domain does. -/
inductive FactorRead (svc : FactorService) : FactorRequest → FactorStore → FactorRequest → Prop
  | code {s : FactorStore} (r r' : CodeRequest) (hread : CodeRead svc.codes r s.codes r') :
      FactorRead svc (code r) s (code r')
  | password {s : FactorStore} (identifier : Text) (user : UserId) (row : User)
      (hfind : s.codes.findByUsername (svc.codes.lower (strip identifier)) = some (user, row))
      (hlock : ¬ s.codes.IsLocked user) :
      FactorRead svc (code .idle) s (password user row (s.codes.failures user))
  | prove {s : FactorStore} (user : UserId) (row : User) (checked : ℕ) (submitted : Text)
      (hmatch : row.passwordHash.any (svc.verifyPassword submitted) = true)
      (hstatus : row.status = .active) (hrole : row.role ≠ .student) :
      FactorRead svc (password user row checked) s (proven user row checked)
  | present {s : FactorStore} (user : UserId) (row : User) (checked : ℕ) (secret : Text)
      (hsecret : s.confirmedSecret svc user = some secret) :
      FactorRead svc (proven user row checked) s (presenting .password user (some checked) secret)
  | remember {s : FactorStore} (value : Text) (now : Instant) (id : DeviceId)
      (device : RememberedDevice) (row : User)
      (hdevice : s.resolveDevice svc value now = some (id, device))
      (hget : s.codes.users.get device.userId = some row) (hstatus : row.status.admitted = true)
      (hrole : row.role = .admin) :
      FactorRead svc (code .idle) s (remembered device.userId)
  | unlock {s : FactorStore} (user : UserId) (row : User) (secret : Text)
      (hget : s.codes.users.get user = some row) (hrole : row.role = .admin)
      (hstatus : row.status = .active) (hlock : ¬ s.codes.IsLocked user)
      (hsecret : s.confirmedSecret svc user = some secret) :
      FactorRead svc (taken .email user) s
        (presenting (.pending .email) user (some (s.codes.failures user)) secret)
  | complete {s : FactorStore} (user : UserId) (row : User) (secret : Text)
      (hget : s.codes.users.get user = some row) (hstatus : row.status = .active)
      (hsecret : s.confirmedSecret svc user = some secret) :
      FactorRead svc (taken .staffMobile user) s
        (presenting (.pending .staffMobile) user none secret)
  | right {s : FactorStore} (leg : SecondLeg) (user : UserId) (checked : Option ℕ)
      (secret submitted : Text) (now : Instant)
      (hcode : svc.verifyTotpCode secret submitted now = true) :
      FactorRead svc (presenting leg user checked secret) s (verified leg user none ∅)
  | recover {s : FactorStore} (user : UserId) (checked : ℕ) (secret submitted : Text)
      (now : Instant) (hcode : svc.verifyTotpCode secret submitted now = false) :
      FactorRead svc (presenting .password user (some checked) secret) s
        (recovering user checked (strip submitted) (s.unusedCodes user))
  | recovered {s : FactorStore} (user : UserId) (checked : ℕ) (submitted : Text)
      (held : Finset RecoveryId) (id : RecoveryId) (row : RecoveryCode) (hmem : id ∈ held)
      (hget : s.recovery.get id = some row)
      (hmatch : svc.verifyPassword submitted row.codeHash = true) :
      FactorRead svc (recovering user checked submitted held) s
        (verified .password user (some id) held)

/-- The commits and the writes to the cache, the sessions that a login opens left out. A
correct code by e-mail or SMS clears the counter before the second factor is asked for; a
login with the password clears it after the commit. An empty second factor without a device
fails under the strict policy and leaves a pending credential under the unified one. Any
request may end without a trace. The last two stand for the expiry of the counter and for
other services. -/
inductive FactorCommit (svc : FactorService) :
    FactorRequest → FactorStore → FactorEvent → FactorRequest → FactorStore → Prop
  | abandoned {s : FactorStore} (m : FactorRequest) :
      FactorCommit svc m s .abandoned (code .idle) s
  | code {s : FactorStore} (r r' : CodeRequest) (ev : CodeEvent) (codes : CodeStore)
      (hcommit : CodeCommit svc.codes r s.codes ev r' codes)
      (hregister : ∀ id outcome, ev = .succeeded id outcome → outcome = .registerToken) :
      FactorCommit svc (code r) s (.code ev) (code r') { s with codes := codes }
  | codeOwes {s : FactorStore} (caller : Caller) (id : ChallengeId) (found : Bool)
      (codes : CodeStore) (user : UserId) (digest : Text) (slots : List Text) (now : Instant)
      (huser : caller.user = some user)
      (hdevice : ∀ email, caller = .mail email user .admin → ¬ s.AnyValidFor svc slots user now)
      (hcommit : CodeCommit svc.codes (.cleared caller id found) s.codes
        (.succeeded id .totpPending) .idle codes) :
      FactorCommit svc (code (.cleared caller id found)) s (.minted user) (code .idle)
        ({ s with codes := codes }.mint caller.channel.domain digest user)
  | codeLogin {s : FactorStore} (caller : Caller) (id : ChallengeId) (found : Bool)
      (codes : CodeStore) (user : UserId) (slots : List Text) (now : Instant)
      (huser : caller.user = some user)
      (hdevice : ∀ email, caller = .mail email user .admin → s.AnyValidFor svc slots user now)
      (hcommit : CodeCommit svc.codes (.cleared caller id found) s.codes
        (.succeeded id .tokens) .idle codes) :
      FactorCommit svc (code (.cleared caller id found)) s (.completed user) (code .idle)
        ({ s with codes := codes }.complete user)
  | passwordWrong {s : FactorStore} (user : UserId) (row : User) (checked : ℕ) (submitted : Text)
      (hmatch : row.passwordHash.any (svc.verifyPassword submitted) = false) :
      FactorCommit svc (password user row checked) s (.failed user) (code .idle)
        (s.recordFailure user)
  | emptyCode {s : FactorStore} (user : UserId) (row : User) (checked : ℕ) (slots : List Text)
      (now : Instant) (hdevice : ¬ s.AnyValidFor svc slots user now) :
      FactorCommit svc (proven user row checked) s (.failed user) (code .idle)
        (s.recordFailure user)
  | passwordOwes {s : FactorStore} (user : UserId) (row : User) (checked : ℕ) (digest : Text)
      (slots : List Text) (now : Instant) (hdevice : ¬ s.AnyValidFor svc slots user now)
      (hrole : row.role = .admin) :
      FactorCommit svc (proven user row checked) s (.minted user) (code .idle)
        (s.mint .staffMobile digest user)
  | passwordLogin {s : FactorStore} (user : UserId) (row : User) (checked : ℕ)
      (slots : List Text) (now : Instant)
      (hdevice : s.AnyValidFor svc slots user now ∨ row.role = .teacher) :
      FactorCommit svc (proven user row checked) s (.completed user) (finishing user)
        (s.complete user)
  | cookieOwes {s : FactorStore} (user : UserId) (digest : Text) :
      FactorCommit svc (remembered user) s (.minted user) (code .idle)
        (s.mint .staffMobile digest user)
  | taken {s : FactorStore} (domain : PendingDomain) (token : Text) (user : UserId)
      (hget : s.pending.get (domain, svc.hashPending token) = some user) :
      FactorCommit svc (code .idle) s (.taken (domain, svc.hashPending token)) (taken domain user)
        { s with pending := s.pending.remove (domain, svc.hashPending token) }
  | wrong {s : FactorStore} (domain : PendingDomain) (user : UserId) (checked : Option ℕ)
      (secret submitted : Text) (now : Instant)
      (hcode : svc.verifyTotpCode secret submitted now = false) :
      FactorCommit svc (presenting (.pending domain) user checked secret) s (.evaluated user)
        (afterWrong user domain) (s.evaluate user)
  | unrecovered {s : FactorStore} (user : UserId) (checked : ℕ) (submitted : Text)
      (held : Finset RecoveryId)
      (hmatch : ∀ id ∈ held, ∀ row, s.recovery.get id = some row →
        svc.verifyPassword submitted row.codeHash = false) :
      FactorCommit svc (recovering user checked submitted held) s (.evaluated user)
        (owing user) (s.evaluate user)
  | recorded {s : FactorStore} (user : UserId) :
      FactorCommit svc (owing user) s (.recorded user) (code .idle) (s.recordFailure user)
  | cleared {s : FactorStore} (user : UserId) :
      FactorCommit svc (verified (.pending .email) user none ∅) s (.cleared user) (clearing user)
        (s.resetFailures user)
  | emailLogin {s : FactorStore} (user : UserId) :
      FactorCommit svc (clearing user) s (.completed user) (code .idle) (s.complete user)
  | staffLogin {s : FactorStore} (user : UserId) :
      FactorCommit svc (verified (.pending .staffMobile) user none ∅) s (.completed user)
        (code .idle) (s.complete user)
  | login {s : FactorStore} (user : UserId) (used : Option RecoveryId)
      (held : Finset RecoveryId) (now : Instant) :
      FactorCommit svc (verified .password user used held) s (.completed user) (finishing user)
        ((s.useCode now used).complete user)
  | reset {s : FactorStore} (user : UserId) :
      FactorCommit svc (finishing user) s (.reset user) (code .idle) (s.resetFailures user)
  | lapsed {s : FactorStore} (user : UserId) (hkey : 0 < s.codes.failures user) :
      FactorCommit svc (code .idle) s (.lapsed user) (code .idle)
        ((s.resetFailures user).complete user)
  | elsewhere {s : FactorStore} (credentials : Table UserId TotpCredential)
      (recovery : Table RecoveryId RecoveryCode) (devices : Table DeviceId RememberedDevice)
      (pending : Table PendingKey UserId)
      (hpending : ∀ key user, pending.get key = some user → s.pending.get key = some user) :
      FactorCommit svc (code .idle) s .elsewhere (code .idle)
        { s with
          credentials := credentials, recovery := recovery, devices := devices
          pending := pending }

def factorProtocol (svc : FactorService) :
    Protocol FactorStore (ChallengeId ⊕ RecoveryId) FactorRequest FactorEvent where
  locks := FactorRequest.locks
  known _ _ := True
  start m := m = code .idle
  read := FactorRead svc
  commit := FactorCommit svc

structure FactorStore.Initial (s : FactorStore) : Prop where
  codes : s.codes.Initial
  pending : s.pending = .empty
  evaluated : ∀ user, s.evaluated user = 0

def factorSystem (svc : FactorService) (ι : Type*) [DecidableEq ι] :
    System (Config ι FactorStore FactorRequest) (Move ι FactorEvent) :=
  (factorProtocol svc).system ι FactorStore.Initial

end CampusQuest.Identity
