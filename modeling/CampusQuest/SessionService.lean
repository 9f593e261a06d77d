import CampusQuest.Generations
import CampusQuest.Guards
import CampusQuest.IdentityRows

/-!
Refresh sessions. A login opens a row that stores the digest of its refresh token; a
rotation locks the presented row, inserts the successor and retires the row in one
transaction, and a retired row keeps its successor's secret in an encrypted envelope so
that a replay within the grace window answers with the live generation again. Logout
walks the replacements to the tip and revokes that.
-/

namespace CampusQuest.Identity

open Generations Guards Tables

/-- `Fernet` under one key: what it encrypted it decrypts. -/
structure Crypt where
  encrypt : ℕ → Text → Text
  decrypt : Text → Option Text
  decrypt_encrypt : ∀ nonce plaintext, decrypt (encrypt nonce plaintext) = some plaintext

/-- The configuration of `SessionService`; its constructor refuses a grace window without
an envelope key. `verifyPassword` is false where the verifier raises. -/
structure SessionService where
  hashRefreshToken : Text → Text
  verifyPassword : Text → Text → Bool
  refreshTtl : Duration
  grace : Duration
  replayCrypt : Option Crypt
  crypt_of_grace : 0 < grace → replayCrypt.isSome

/-- What a rotation draws: the row id, the token and the nonce of its envelope. -/
structure Fresh where
  sessionId : SessionId
  secret : Text
  nonce : ℕ
  deriving DecidableEq

structure AccessToken where
  userId : UserId
  sessionId : SessionId
  role : Role
  issuedAt : Instant
  deriving DecidableEq

structure SessionTokens where
  accessToken : AccessToken
  refreshToken : Text
  role : Role
  deriving DecidableEq

def chainHopBound : ℕ := 8

def replayEnvelopePrefix : Text := "replay:v1:".toList

namespace Db

variable (db : Db)

def findUser (username : Text) : Option (UserId × User) :=
  db.users.find fun _ u => u.username = username

def findSession (digest : Text) : Option (SessionId × UserSession) :=
  db.sessions.find fun _ s => s.refreshTokenHash = digest

def putSession (id : SessionId) (s : UserSession) : Db :=
  { db with sessions := db.sessions.put id s }

def nextSession (id : SessionId) : Option SessionId := do
  let s ← db.sessions.get id
  let next ← s.replacedBy
  let _ ← db.sessions.get next
  some next

end Db

namespace SessionService

variable (svc : SessionService) (db : Db)

/-- `issue_session`: the id and the digest are unique. -/
def issueSession (userId : UserId) (user : User) (fresh : Fresh) (now : Instant) :
    Except IdentityError (SessionTokens × Db) := do
  let digest := svc.hashRefreshToken fresh.secret
  ensure (db.sessions.get fresh.sessionId = none ∧ db.findSession digest = none) .integrityError
  .ok (⟨⟨userId, fresh.sessionId, user.role, now⟩, fresh.secret, user.role⟩,
    db.putSession fresh.sessionId
      ⟨userId, digest, now + svc.refreshTtl, none, none, none, none⟩)

/-- `login_student`; `locked` is what the failure guard answers for the account. -/
def loginStudent (username password : Text) (locked : Bool) (fresh : Fresh) (now : Instant) :
    Except IdentityError (SessionTokens × Db) := do
  let (userId, user) ← orRefuse .authenticationRequired (db.findUser (strip username))
  ensure (locked = false) .accountLocked
  ensure (user.passwordHash.any (svc.verifyPassword password) = true) .authenticationRequired
  ensure (user.status.admitted = true) .accountNotActive
  ensure (user.role = .student) .authenticationRequired
  svc.issueSession db userId user fresh now

def decryptEnvelope (row : UserSession) : Option Text := do
  let envelope ← row.replayEnvelope
  let crypt ← svc.replayCrypt
  if envelope = [] then none
  else
    let plaintext ← crypt.decrypt envelope
    if replayEnvelopePrefix.isPrefixOf plaintext then
      some (plaintext.drop replayEnvelopePrefix.length)
    else none

/-- One hop of the replay: the successor that the envelope's secret names. A successor
that was revoked without a replacement ends the lineage. -/
def hop (row : UserSession) : Option (SessionId × UserSession × Text) := do
  let secret ← svc.decryptEnvelope row
  let (id, successor) ← db.findSession (svc.hashRefreshToken secret)
  if successor.revokedAt ≠ none ∧ successor.replacedBy = none then none
  else some (id, successor, secret)

/-- The hops of the replay, until a row that is not replaced. -/
def resolve : ℕ → UserSession → Option (SessionId × UserSession × Text)
  | 0, _ => none
  | hops + 1, row =>
    match svc.hop db row with
    | none => none
    | some (id, successor, secret) =>
      if successor.replacedBy = none then some (id, successor, secret)
      else resolve hops successor

def stableReplay (presented : UserSession) (now : Instant) : Option SessionTokens := do
  if svc.grace ≤ 0 ∨ presented.replacedBy = none then none
  else
    let replacedAt ← presented.replacedAt
    if svc.grace < now - replacedAt then none
    else
      let (id, row, secret) ← svc.resolve db chainHopBound presented
      if row.revokedAt ≠ none ∨ row.replacedBy ≠ none ∨ row.expiresAt ≤ now then none
      else
        let user ← db.users.get row.userId
        if user.status.admitted then
          some ⟨⟨row.userId, id, user.role, now⟩, secret, user.role⟩
        else none

/-- The columns of a retired row; the envelope is written only with a grace window. -/
def retire (current : UserSession) (fresh : Fresh) (now : Instant) : UserSession :=
  { current with
    revokedAt := some now
    replacedBy := some fresh.sessionId
    replacedAt := some now
    replayEnvelope :=
      match svc.replayCrypt with
      | some crypt =>
        if 0 < svc.grace then some (crypt.encrypt fresh.nonce (replayEnvelopePrefix ++ fresh.secret))
        else current.replayEnvelope
      | none => current.replayEnvelope }

/-- `rotate_refresh`, under the lock of the presented row. -/
def rotateRefresh (token : Text) (fresh : Fresh) (now : Instant) :
    Except IdentityError (SessionTokens × Db) := do
  let (id, current) ←
    orRefuse .authenticationRequired (db.findSession (svc.hashRefreshToken token))
  ensure (now < current.expiresAt) .authenticationRequired
  if current.revokedAt ≠ none ∨ current.replacedBy ≠ none then
    let tokens ← orRefuse .authenticationRequired (svc.stableReplay db current now)
    .ok (tokens, db)
  else
    let user ← orRefuse .authenticationRequired (db.users.get current.userId)
    ensure (user.status.admitted = true) .accountNotActive
    let (tokens, issued) ← svc.issueSession db current.userId user fresh now
    .ok (tokens, issued.putSession id (svc.retire current fresh now))

/-- The tip of the chain below a session: the walk of `revoke_session`, which stops at the
last row that can be reached and has as many hops as there are rows. -/
def tipOf (id : SessionId) : Option SessionId :=
  follow db.nextSession db.sessions.keys.card id

/-- `revoke_session`: no answer means that the walk did not end. -/
def revokeSession (token : Text) (now : Instant) : Option Db :=
  match db.findSession (svc.hashRefreshToken token) with
  | none => some db
  | some (id, _) => do
    let tip ← tipOf db id
    let row ← db.sessions.get tip
    if row.revokedAt = none then
      some (db.putSession tip { row with revokedAt := some now })
    else some db

end SessionService

end CampusQuest.Identity
