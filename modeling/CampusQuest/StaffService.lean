import CampusQuest.AdminKick
import CampusQuest.SessionService

/-!
Staff invitations. An invitation carries the digest of its one-time token: accepting trades
the token for an account and a session, revoking kills it, and resending replaces the token
and revives the row. The three work under the lock of the invitation's row; each function
here is the part of one call that runs behind that lock.
-/

namespace CampusQuest.Identity

open Guards Tables

structure StaffInvitation where
  emailNormalized : Text
  role : Role
  tokenHash : Text
  expiresAt : Instant
  acceptedAt : Option Instant
  revokedAt : Option Instant
  createdBy : UserId
  deriving DecidableEq

structure StaffDb where
  db : Db
  invitations : Table InvitationId StaffInvitation

structure StaffService where
  sessions : SessionService
  hashPassword : Text → Text
  invitationTtl : Duration

structure PendingStaffSession where
  userId : UserId
  role : Role
  tokens : SessionTokens
  mustSetupTotp : Bool
  deriving DecidableEq

def passwordLengthValid (password : Text) : Bool :=
  10 ≤ password.length && password.length ≤ 128

/-- The check of a supplied password, before the invitation is looked up. -/
def requireUsablePassword (password : Option Text) : Except IdentityError Unit :=
  ensure (password.all (fun p => p.isEmpty || passwordLengthValid p) = true) .validationError

def storedPassword (password : Option Text) : Option Text :=
  password.filter fun p => !(strip p).isEmpty

def nicknameForEmail (email : Text) : Text :=
  let localPart := email.takeWhile (· ≠ '@')
  (if localPart.isEmpty then "staff".toList else localPart).take 255

namespace StaffService

variable (svc : StaffService) (s : StaffDb)

def invitedUser (row : StaffInvitation) (password : Option Text) (now : Instant) : User where
  username := row.emailNormalized
  passwordHash := (storedPassword password).map svc.hashPassword
  nickname := nicknameForEmail row.emailNormalized
  phoneE164 := none
  emailNormalized := some row.emailNormalized
  emailVerifiedAt := some now
  role := row.role
  status := .active

/-- `accept_staff_invitation` behind the row lock. The select re-checks the digest on the
locked row, and the unique indexes judge the insert with the same error as the look-up. -/
def acceptStaffInvitation (id : InvitationId) (row : StaffInvitation) (token : Text)
    (password : Option Text) (userId : UserId) (fresh : Fresh) (now : Instant)
    (context : Option AuditContext) : Except IdentityError (PendingStaffSession × StaffDb) := do
  ensure (row.tokenHash = svc.sessions.hashRefreshToken token ∧ row.acceptedAt = none ∧
    row.revokedAt = none) .authenticationRequired
  ensure (now < row.expiresAt) .authenticationRequired
  ensure (row.role = .admin → storedPassword password ≠ none) .validationError
  ensure (s.db.findUser row.emailNormalized = none) .usernameAlreadyExists
  ensure (s.db.users.get userId = none ∧
    s.db.users.find (fun _ u => u.emailNormalized = some row.emailNormalized) = none)
    .usernameAlreadyExists
  let user := svc.invitedUser row password now
  let (tokens, db) ← svc.sessions.issueSession
    { s.db with users := s.db.users.put userId user } userId user fresh now
  .ok (⟨userId, row.role, tokens, row.role = .admin⟩,
    { db := db.appendAudit ⟨⟨userId, row.role⟩, .staffInvitationAccepted, id, none,
        some (.acceptance none), some (.acceptance (some now)), context⟩
      invitations := s.invitations.put id { row with acceptedAt := some now } })

def revokeInvitation (id : InvitationId) (row : StaffInvitation) (actor : Actor) (now : Instant)
    (context : Option AuditContext) : Except IdentityError StaffDb := do
  ensure (row.acceptedAt = none ∧ row.revokedAt = none) .conflict
  .ok { db := s.db.appendAudit ⟨actor, .staffInvitationRevoked, id, none, none,
          some (.revocation row.role now row.expiresAt), context⟩
        invitations := s.invitations.put id { row with revokedAt := some now } }

/-- `resend_invitation` behind the row lock: the window restarts and a revoked row revives. -/
def resendInvitation (id : InvitationId) (row : StaffInvitation) (actor : Actor) (secret : Text)
    (now : Instant) (context : Option AuditContext) : Except IdentityError StaffDb := do
  ensure (row.acceptedAt = none) .conflict
  let expiresAt := now + svc.invitationTtl
  let digest := svc.sessions.hashRefreshToken secret
  ensure (∀ found ∈ s.invitations.find (fun _ r => r.tokenHash = digest), found.1 = id)
    .integrityError
  .ok { db := s.db.appendAudit ⟨actor, .staffInvitationResent, id, none, none,
          some (.resending row.role expiresAt), context⟩
        invitations := s.invitations.put id
          { row with tokenHash := digest, expiresAt := expiresAt, revokedAt := none } }

end StaffService

end CampusQuest.Identity
