import CampusQuest.Guards
import CampusQuest.IdentityRows
import CampusQuest.TwoProcesses

/-!
Login codes by e-mail and by SMS. A request looks up the account, then the newest challenge
of the address, compares the code and either counts the failure or deletes the challenge and
answers. The challenge is loaded without a lock; the UPDATE of a wrong code and the DELETE of
a correct one lock the row, and some answers leave the transaction to be rolled back. The
failure counter of an account lives outside the database and is written at once.
-/

namespace CampusQuest.Identity

open Guards Locking Runs Tables

abbrev ChallengeId := ℕ

inductive CodeChannel
  | email
  | mobile
  deriving DecidableEq, Repr

structure LoginChallenge where
  channel : CodeChannel
  address : Text
  codeHash : Text
  expiresAt : Instant
  attempts : ℕ
  createdAt : Instant
  deriving DecidableEq

def maxVerifyAttempts : ℕ := 5

def codeTtl : Duration := seconds 300

def lockThreshold : ℕ := 5

/-- The accounts, the challenges and the failure counters. `issued` bounds the ids that were
ever given out. Two columns are ghosts: the wrong codes that were compared against a
challenge, and the verify calls that it let succeed. -/
structure CodeStore where
  users : Table UserId User
  challenges : Table ChallengeId LoginChallenge
  failures : UserId → ℕ
  issued : ChallengeId
  compared : ChallengeId → ℕ
  successes : ChallengeId → ℕ

/-- `normalizePhone` answers nothing where the library raises; `lower` is `str.lower`. -/
structure CodeService where
  hashCode : Text → Text
  lower : Text → Text
  normalizePhone : Text → Option Text

/-- Who presents a code, once the account has been looked up: a phone without an account, a
student's phone, the phone of staff, or the e-mail of staff. -/
inductive Caller
  | entry (phone : Text)
  | student (phone : Text) (user : UserId)
  | staff (phone : Text) (user : UserId) (role : Role)
  | mail (email : Text) (user : UserId) (role : Role)
  deriving DecidableEq

inductive Door
  | emailCode (email : Text)
  | mobileCode (phone : Text)
  | staffMobileCode (phone : Text)
  deriving DecidableEq

inductive LoginOutcome
  | tokens
  | totpPending
  | registerToken
  deriving DecidableEq, Repr

namespace Caller

def channel : Caller → CodeChannel
  | entry _ | student _ _ | staff _ _ _ => .mobile
  | mail _ _ _ => .email

def address : Caller → Text
  | entry phone | student phone _ | staff phone _ _ => phone
  | mail email _ _ => email

def user : Caller → Option UserId
  | entry _ => none
  | student _ user | staff _ user _ | mail _ user _ => some user

/-- What a correct code answers, and whether the transaction is committed before that.
`remembered` says whether the device cookie of an administrator is valid. -/
def outcome : Caller → Bool → LoginOutcome × Bool
  | entry _, _ => (.registerToken, false)
  | student _ _, _ => (.tokens, true)
  | staff _ _ role, _ => if role = .admin then (.totpPending, false) else (.tokens, true)
  | mail _ _ role, remembered =>
    if role = .teacher ∨ remembered then (.tokens, true) else (.totpPending, true)

end Caller

namespace CodeStore

variable (s : CodeStore)

def findByPhone (phone : Text) : Option (UserId × User) :=
  s.users.find fun _ u => u.phoneE164 = some phone

def findByUsername (username : Text) : Option (UserId × User) :=
  s.users.find fun _ u => u.username = username

def IsLocked (user : UserId) : Prop := lockThreshold ≤ s.failures user

instance (user : UserId) : Decidable (s.IsLocked user) := inferInstanceAs (Decidable (_ ≤ _))

/-- `record_failure`; a phone without an account has no counter. -/
def recordFailure : Option UserId → CodeStore
  | none => s
  | some user => { s with failures := Function.update s.failures user (s.failures user + 1) }

def resetFailures : Option UserId → CodeStore
  | none => s
  | some user => { s with failures := Function.update s.failures user 0 }

/-- The dispatch of the verify endpoint. A phone without an account that is the username of
a student is refused. -/
def dispatch (svc : CodeService) (identifier : Text) : Option Door :=
  let value := strip identifier
  match svc.normalizePhone value with
  | some phone =>
    match s.findByPhone phone with
    | none => if (s.findByUsername value).isSome then none else some (.mobileCode phone)
    | some (_, user) =>
      if user.role = .student then some (.mobileCode phone) else some (.staffMobileCode phone)
  | none => if '@' ∈ value then some (.emailCode (svc.lower value)) else none

/-- The account checks of the three services, the lock last. -/
def gate : Door → Option Caller
  | .emailCode email => do
    let (id, user) ← s.findByUsername email
    if user.role = .student ∨ user.status ≠ .active ∨ s.IsLocked id then none
    else some (.mail email id user.role)
  | .mobileCode phone =>
    match s.findByPhone phone with
    | none => some (.entry phone)
    | some (id, user) =>
      if user.role ≠ .student ∨ user.status.admitted = false ∨ s.IsLocked id then none
      else some (.student phone id)
  | .staffMobileCode phone => do
    let (id, user) ← s.findByPhone phone
    if user.role = .student ∨ user.status ≠ .active ∨ s.IsLocked id then none
    else some (.staff phone id user.role)

def newest (caller : Caller) : Option (ChallengeId × LoginChallenge) :=
  (s.challenges.scan (fun _ r => r.channel = caller.channel ∧ r.address = caller.address)
    fun r => -r.createdAt).head?

def challenge (id : ChallengeId) : Option LoginChallenge := s.challenges.get id

def deleteChallenge (id : ChallengeId) : CodeStore :=
  { s with challenges := s.challenges.remove id }

def replaceChallenges (deleted : Finset ChallengeId) (row : LoginChallenge) : CodeStore :=
  { s with
    challenges := (s.challenges.deleteWhere fun id _ => id ∈ deleted).put s.issued row
    issued := s.issued + 1 }

end CodeStore

def LoginChallenge.Live (row : LoginChallenge) (now : Instant) : Prop :=
  now < row.expiresAt ∧ row.attempts < maxVerifyAttempts

instance (row : LoginChallenge) (now : Instant) : Decidable (row.Live now) :=
  inferInstanceAs (Decidable (_ ∧ _))

/-- A request at work. `found` says whether the DELETE found the row. -/
inductive CodeRequest
  | idle
  | dispatched (door : Door)
  | admitted (caller : Caller)
  | loaded (caller : Caller) (id : ChallengeId) (row : LoginChallenge)
  | mismatched (caller : Caller) (id : ChallengeId) (row : LoginChallenge)
  | updating (caller : Caller) (id : ChallengeId) (row : LoginChallenge)
  | charging (caller : Caller)
  | matched (caller : Caller) (id : ChallengeId)
  | deleted (caller : Caller) (id : ChallengeId) (found : Bool)
  | cleared (caller : Caller) (id : ChallengeId) (found : Bool)
  | replacing (channel : CodeChannel) (address : Text) (held : Finset ChallengeId)

open CodeRequest

/-- The UPDATE and the DELETE hold the row that they found. -/
def CodeRequest.locks : CodeRequest → ChallengeId → Prop
  | updating _ id _, k => k = id
  | deleted _ id found, k | cleared _ id found, k => found = true ∧ k = id
  | replacing _ _ held, k => k ∈ held
  | _, _ => False

inductive CodeEvent
  | abandoned
  | refused
  | compared (id : ChallengeId) (right : Bool)
  | counted (id : ChallengeId)
  | charged
  | discarded (id : ChallengeId)
  | cleared (id : ChallengeId)
  | succeeded (id : ChallengeId) (outcome : LoginOutcome)
  | replaced (id : ChallengeId)
  | accounts
  | reset (user : UserId)
  | failed (user : UserId)

inductive CodeRead (svc : CodeService) : CodeRequest → CodeStore → CodeRequest → Prop
  | dispatch {s : CodeStore} (identifier : Text) (door : Door)
      (hdoor : s.dispatch svc identifier = some door) : CodeRead svc idle s (dispatched door)
  | gate {s : CodeStore} (door : Door) (caller : Caller) (hcaller : s.gate door = some caller) :
      CodeRead svc (dispatched door) s (admitted caller)
  | load {s : CodeStore} (caller : Caller) (id : ChallengeId) (row : LoginChallenge)
      (now : Instant) (hnewest : s.newest caller = some (id, row)) (hlive : row.Live now) :
      CodeRead svc (admitted caller) s (loaded caller id row)
  | update {s : CodeStore} (caller : Caller) (id : ChallengeId) (row : LoginChallenge)
      (hrow : (s.challenge id).isSome) :
      CodeRead svc (mismatched caller id row) s (updating caller id row)
  | delete {s : CodeStore} (caller : Caller) (id : ChallengeId) :
      CodeRead svc (matched caller id) s (deleted caller id (s.challenge id).isSome)
  | request {s : CodeStore} (channel : CodeChannel) (address : Text) :
      CodeRead svc idle s (replacing channel address ∅)
  | supersede {s : CodeStore} (channel : CodeChannel) (address : Text)
      (held : Finset ChallengeId) (id : ChallengeId) (row : LoginChallenge)
      (hrow : s.challenge id = some row) (haddress : row.channel = channel ∧ row.address = address) :
      CodeRead svc (replacing channel address held) s (replacing channel address (insert id held))

/-- The commits and the writes to the counters. A wrong code by e-mail is counted in a
transaction that the raise rolls back; one by SMS is committed first. Any request may end
without a trace. The last three stand for other services: account changes, a counter that a
login clears or that lapses, and other failures. -/
inductive CodeCommit (svc : CodeService) :
    CodeRequest → CodeStore → CodeEvent → CodeRequest → CodeStore → Prop
  | abandoned {s : CodeStore} (m : CodeRequest) : CodeCommit svc m s .abandoned idle s
  | refused {s : CodeStore} (caller : Caller) (now : Instant)
      (hstale : ∀ id row, s.newest caller = some (id, row) → ¬ row.Live now) :
      CodeCommit svc (admitted caller) s .refused idle (s.recordFailure caller.user)
  | mismatch {s : CodeStore} (caller : Caller) (id : ChallengeId) (row : LoginChallenge)
      (code : Text) (hcode : svc.hashCode (strip code) ≠ row.codeHash) :
      CodeCommit svc (loaded caller id row) s (.compared id false) (mismatched caller id row)
        { s with compared := Function.update s.compared id (s.compared id + 1) }
  | match {s : CodeStore} (caller : Caller) (id : ChallengeId) (row : LoginChallenge)
      (code : Text) (hcode : svc.hashCode (strip code) = row.codeHash) :
      CodeCommit svc (loaded caller id row) s (.compared id true) (matched caller id) s
  | counted {s : CodeStore} (caller : Caller) (id : ChallengeId) (row current : LoginChallenge)
      (hchannel : caller.channel = .mobile) (hrow : s.challenge id = some current) :
      CodeCommit svc (updating caller id row) s (.counted id) (charging caller)
        { s with
          challenges := s.challenges.put id { current with attempts := row.attempts + 1 } }
  | charged {s : CodeStore} (caller : Caller) :
      CodeCommit svc (charging caller) s .charged idle (s.recordFailure caller.user)
  | discarded {s : CodeStore} (caller : Caller) (id : ChallengeId) (row : LoginChallenge)
      (hchannel : caller.channel = .email) :
      CodeCommit svc (updating caller id row) s (.discarded id) idle
        (s.recordFailure caller.user)
  | cleared {s : CodeStore} (caller : Caller) (id : ChallengeId) (found : Bool) :
      CodeCommit svc (deleted caller id found) s (.cleared id) (CodeRequest.cleared caller id found)
        (s.resetFailures caller.user)
  | succeeded {s : CodeStore} (caller : Caller) (id : ChallengeId) (found remembered : Bool) :
      CodeCommit svc (CodeRequest.cleared caller id found) s
        (.succeeded id (caller.outcome remembered).1) idle
        { (if found = true ∧ (caller.outcome remembered).2 = true then s.deleteChallenge id else s)
          with successes := Function.update s.successes id (s.successes id + 1) }
  | replaced {s : CodeStore} (channel : CodeChannel) (address code : Text)
      (held : Finset ChallengeId) (now : Instant) :
      CodeCommit svc (replacing channel address held) s (.replaced s.issued) idle
        (s.replaceChallenges held ⟨channel, address, svc.hashCode code, now + codeTtl, 0, now⟩)
  | accounts {s : CodeStore} (users : Table UserId User)
      (hnames : ∀ username id user, s.findByUsername username = some (id, user) →
        ∃ user', ({ s with users := users } : CodeStore).findByUsername username = some (id, user')) :
      CodeCommit svc idle s .accounts idle { s with users := users }
  | reset {s : CodeStore} (user : UserId) :
      CodeCommit svc idle s (.reset user) idle (s.resetFailures (some user))
  | failed {s : CodeStore} (user : UserId) :
      CodeCommit svc idle s (.failed user) idle (s.recordFailure (some user))

/-- A DELETE that found the row keeps it, and so does an UPDATE; ids are given out once. -/
def CodeRequest.knows (s : CodeStore) : CodeRequest → Prop
  | updating _ id _ => (s.challenge id).isSome
  | deleted _ id found | cleared _ id found => found = true → (s.challenge id).isSome
  | _ => True

def codeProtocol (svc : CodeService) : Protocol CodeStore ChallengeId CodeRequest CodeEvent where
  locks := CodeRequest.locks
  known m s := m.knows s
  start m := m = idle
  read := CodeRead svc
  commit := CodeCommit svc

structure CodeStore.Initial (s : CodeStore) : Prop where
  challenges : s.challenges = .empty
  compared : ∀ id, s.compared id = 0
  successes : ∀ id, s.successes id = 0

def codeSystem (svc : CodeService) (ι : Type*) [DecidableEq ι] :
    System (Config ι CodeStore CodeRequest) (Move ι CodeEvent) :=
  (codeProtocol svc).system ι CodeStore.Initial

section Sound

variable {svc : CodeService} {s s' : CodeStore} {m m' : CodeRequest} {ev : CodeEvent}

@[simp] theorem recordFailure_challenges (user : Option UserId) :
    (s.recordFailure user).challenges = s.challenges := by
  cases user <;> rfl

@[simp] theorem resetFailures_challenges (user : Option UserId) :
    (s.resetFailures user).challenges = s.challenges := by
  cases user <;> rfl

theorem challenge_put (id k : ChallengeId) (row : LoginChallenge) :
    (s.challenges.put id row).get k = if k = id then some row else s.challenge k :=
  Table.get_put _ id k row

theorem challenge_deleteChallenge (id k : ChallengeId) :
    (s.deleteChallenge id).challenge k = if k = id then none else s.challenge k :=
  Table.get_remove _ id k

theorem commit_keeps_row (hcommit : CodeCommit svc m s ev m' s') {k : ChallengeId}
    (hlock : ¬ m.locks k) (hrow : (s.challenge k).isSome) : (s'.challenge k).isSome := by
  cases hcommit with
  | abandoned => exact hrow
  | refused => rwa [CodeStore.challenge, recordFailure_challenges]
  | mismatch => exact hrow
  | «match» => exact hrow
  | counted caller id row current hchannel hget =>
    unfold CodeStore.challenge
    rw [challenge_put]
    split
    · rfl
    · exact hrow
  | charged => rwa [CodeStore.challenge, recordFailure_challenges]
  | discarded => rwa [CodeStore.challenge, recordFailure_challenges]
  | cleared => rwa [CodeStore.challenge, resetFailures_challenges]
  | succeeded caller id found remembered =>
    split
    next h =>
      change ((s.deleteChallenge id).challenge k).isSome
      have hne : k ≠ id := fun heq => hlock ⟨h.1, heq⟩
      rwa [challenge_deleteChallenge, if_neg hne]
    next => exact hrow
  | replaced channel address code held now =>
    obtain ⟨row, hrow⟩ := Option.isSome_iff_exists.mp hrow
    have hkept : (s.challenges.deleteWhere fun id _ => id ∈ held).get k = some row :=
      Table.get_deleteWhere_eq_some.mpr ⟨hrow, hlock⟩
    change ((Table.put _ s.issued _).get k).isSome
    rw [Table.get_put, hkept]
    split <;> rfl
  | accounts => exact hrow
  | reset => rwa [CodeStore.challenge, resetFailures_challenges]
  | failed => rwa [CodeStore.challenge, recordFailure_challenges]

theorem code_sound (svc : CodeService) : (codeProtocol svc).Sound fun _ => True := by
  constructor
  · intro m k hstart hlock
    obtain rfl : m = idle := hstart
    exact hlock
  · intro m s hstart
    obtain rfl : m = idle := hstart
    trivial
  · intro m s m' hknown hread
    cases hread with
    | update caller id row hrow => exact hrow
    | delete caller id => exact fun hfound => hfound
    | _ => trivial
  · intro m s ev m' s' _ _ _
    trivial
  · intro m s ev m' s' _ hknown hcommit
    cases hcommit with
    | cleared caller id found =>
      intro hfound
      rw [CodeStore.challenge, resetFailures_challenges]
      exact hknown hfound
    | _ => trivial
  · intro m s ev m' s' o _ _ hcommit hknown hdisjoint
    have hkeep {k : ChallengeId} (hk : o.locks k) (hrow : (s.challenge k).isSome) :
        (s'.challenge k).isSome :=
      commit_keeps_row hcommit (fun hlock => hdisjoint k hlock hk) hrow
    cases o with
    | updating caller id row => exact hkeep rfl hknown
    | deleted caller id found => exact fun hfound => hkeep ⟨hfound, rfl⟩ (hknown hfound)
    | cleared caller id found => exact fun hfound => hkeep ⟨hfound, rfl⟩ (hknown hfound)
    | _ => trivial

end Sound

end CampusQuest.Identity
