import CampusQuest.BulkStatements
import CampusQuest.Vocabulary

/-!
The rows of the identity module: accounts, refresh sessions, remembered devices, staff
invitations and the audit log. A token rests as its digest only; the presented secret and
the digest are texts, and nothing here looks inside either.
-/

namespace CampusQuest.Identity

open Tables

abbrev SessionId := ℕ
abbrev DeviceId := ℕ
abbrev InvitationId := ℕ

def seconds (n : ℤ) : Duration := n * 1000000

def days (n : ℤ) : Duration := n * 86400000000

inductive UserStatus
  | pendingPhone
  | active
  | suspended
  | banned
  | pendingApproval
  deriving DecidableEq, Repr

/-- `status in (ACTIVE, PENDING_APPROVAL)`: the statuses that may hold a session. -/
def UserStatus.admitted : UserStatus → Bool
  | active | pendingApproval => true
  | pendingPhone | suspended | banned => false

inductive IdentityError
  | authenticationRequired
  | accountNotActive
  | accountLocked
  | permissionDenied
  | validationError
  | notFound
  | conflict
  | otpTokenInvalid
  | usernameAlreadyExists
  | emailAlreadyBound
  | integrityError
  deriving DecidableEq, Repr

structure User where
  username : Text
  passwordHash : Option Text
  nickname : Text
  phoneE164 : Option Text
  emailNormalized : Option Text
  emailVerifiedAt : Option Instant
  role : Role
  status : UserStatus
  deriving DecidableEq

structure UserSession where
  userId : UserId
  refreshTokenHash : Text
  expiresAt : Instant
  revokedAt : Option Instant
  replacedBy : Option SessionId
  replacedAt : Option Instant
  replayEnvelope : Option Text
  deriving DecidableEq

structure RememberedDevice where
  userId : UserId
  tokenHash : Text
  expiresAt : Instant
  lastUsedAt : Option Instant
  createdAt : Instant
  deriving DecidableEq

/-- What the audit writer is given as the after snapshot of a target; none of these keys
names a secret, so the redaction leaves them as they are. -/
inductive Snapshot
  | revoked (sessions devices : ℕ)
  | status (s : UserStatus)
  | role (r : Role)
  | sessionsRevoked
  | acceptance (acceptedAt : Option Instant)
  | revocation (role : Role) (revokedAt expiresAt : Instant)
  | resending (role : Role) (expiresAt : Instant)
  deriving DecidableEq, Repr

inductive AuditAction
  | adminSessionsRevoked
  | roleChanged
  | userSuspended
  | userBanned
  | userReactivated
  | adminPasswordResetConsumed
  | staffInvitationRevoked
  | staffInvitationResent
  | staffInvitationAccepted
  deriving DecidableEq, Repr

structure AuditContext where
  ipAddress : Option Text
  requestId : Option Text
  deriving DecidableEq

structure AuditLog where
  actor : Actor
  action : AuditAction
  targetId : ℕ
  reason : Option Text
  before : Option Snapshot
  after : Option Snapshot
  context : Option AuditContext
  deriving DecidableEq

/-- The identity tables; the audit log is append-only, newest last. -/
structure Db where
  users : Table UserId User
  sessions : Table SessionId UserSession
  devices : Table DeviceId RememberedDevice
  audits : List AuditLog

namespace Db

def empty : Db := ⟨.empty, .empty, .empty, []⟩

end Db

end CampusQuest.Identity
