import CampusQuest.PhoneProofs
import CampusQuest.CredentialReset
import CampusQuest.StaffService

/-!
The consumers of single-use proofs. Each flow checks the shape of its request and takes its
proof; the flows differ in the order of the two.
-/

namespace CampusQuest.Identity

open Guards Tables

/-- The character tables and the segmentation that the check of a nickname needs. -/
structure NicknameTables where
  isInvisible : Char → Bool
  isCombining : Char → Bool
  graphemes : Text → ℕ

def validStudentNumber (value : Text) : Bool :=
  value.all (fun c => '0' ≤ c && c ≤ '9') && 6 ≤ value.length && value.length ≤ 20

def zeroWidthJoiner : Char := Char.ofNat 0x200d

def NicknameTables.visuallyEmpty (tables : NicknameTables) (cleaned : Text) : Bool :=
  !cleaned.any fun c => !isSpace c && c ≠ zeroWidthJoiner && !tables.isCombining c

def NicknameTables.normalizeNickname (tables : NicknameTables) (value : Text) : Option Text :=
  let cleaned := strip (value.filter fun c => !(tables.isInvisible c && c ≠ zeroWidthJoiner))
  if cleaned ≠ [] ∧ tables.visuallyEmpty cleaned = false ∧ cleaned.length ≤ 255 ∧
      tables.graphemes cleaned ≤ 16 then some cleaned
  else none

structure ConsumerService where
  nicknames : NicknameTables
  phones : PhonePolicy
  staff : StaffService
  /-- The digests of the entry tokens and of the reset links. -/
  hashText : Text → Text

inductive ConsumerError
  | validationError
  /-- A `ValueError` that no flow catches. -/
  | valueError
  | otpTokenInvalid
  | mobileCodeInvalid
  | wrongCode
  | challenge (e : OtpError)
  | phoneAlreadyBound
  | usernameAlreadyExists
  | databaseError
  | invitation (e : IdentityError)
  deriving DecidableEq

/-- The challenges and tokens of the phones, the entry tokens, the reset links and the staff
database with its invitations. -/
structure ConsumerStore where
  phones : ProofStore
  entries : Table Text Text
  links : Table Text UserId
  staff : StaffDb

abbrev Consumed := ConsumerStore × Except ConsumerError Unit

structure Registration where
  studentNumber : Text
  nickname : Option Text
  password : Option Text

namespace Registration

variable (r : Registration)

def BlankNickname : Prop := ∀ n ∈ r.nickname, strip n = []

instance : Decidable r.BlankNickname :=
  inferInstanceAs (Decidable (∀ n ∈ r.nickname, strip n = []))

def usablePassword : Bool := r.password.all fun p => p.isEmpty || passwordLengthValid p

def suppliedPassword : Option Text := r.password.filter fun p => !p.isEmpty

/-- The student number, nickname and password are what a registration may ask for. -/
def Valid (tables : NicknameTables) : Prop :=
  validStudentNumber r.studentNumber = true ∧
    (r.BlankNickname ∨ ∃ n ∈ r.nickname, tables.normalizeNickname n ≠ none) ∧
    r.usablePassword = true

def validatedNickname (tables : NicknameTables) : Option Text :=
  if r.BlankNickname then some r.studentNumber else r.nickname.bind tables.normalizeNickname

def strippedNickname : Text :=
  if r.BlankNickname then r.studentNumber else strip (r.nickname.getD [])

end Registration

namespace ConsumerStore

variable (svc : ConsumerService) (s : ConsumerStore)

/-- The insert of a student behind the look-up of the phone. -/
def insertStudent (phone nickname : Text) (r : Registration) (userId : UserId) : Consumed :=
  if (s.staff.db.users.find fun _ u => u.phoneE164 = some phone) ≠ none then
    (s, .error .phoneAlreadyBound)
  else if nickname.length > 255 then (s, .error .databaseError)
  else if s.staff.db.findUser r.studentNumber ≠ none then (s, .error .usernameAlreadyExists)
  else
    ({ s with
        staff := { s.staff with
          db := { s.staff.db with
            users := s.staff.db.users.put userId
              ⟨r.studentNumber, r.suppliedPassword.map svc.staff.hashPassword, nickname,
                some phone, none, none, .student, .pendingApproval⟩ } } }, .ok ())

def verifyPhoneToken (token : Text) : ConsumerStore × Except ConsumerError PhoneProof :=
  match s.phones.tokens.get (svc.phones.digest token) with
  | none => (s, .error .otpTokenInvalid)
  | some proof =>
    let s' := { s with
      phones := { s.phones with tokens := s.phones.tokens.remove (svc.phones.digest token) } }
    if s.phones.clock < proof.expiresAt then (s', .ok proof) else (s', .error .otpTokenInvalid)

def verifyPhoneChallenge (id : OtpId) (code fresh : Text) :
    ConsumerStore × Except ConsumerError Text :=
  match OtpRecord.gate svc.phones.toOtpPolicy s.phones.clock
      ((s.phones.records.get id).map PhoneRecord.toOtpRecord) with
  | .error e => (s, .error (.challenge e))
  | .ok (salt, codeHash) =>
    if svc.phones.hmacHex salt code ≠ codeHash then
      ({ s with phones := s.phones.countAttempt id }, .error .wrongCode)
    else
      let record := s.phones.recordOf id
      ({ s with
          phones := (s.phones.claim id s.phones.clock).mint id (svc.phones.digest fresh)
            ⟨record.phone.getD [], record.purpose,
              s.phones.clock + svc.phones.verifiedTokenTtl⟩ }, .ok fresh)

/-- The new verifier of an account, and the end of its sessions. -/
def resetPassword (user : UserId) (row : User) (password : Text) : ConsumerStore :=
  { s with
    staff := { s.staff with
      db := { s.staff.db with
        users := s.staff.db.users.put user
          { row with passwordHash := some (svc.staff.hashPassword password) } }.revokeSessions user
            s.phones.clock } }

/-- `register_student`: the request is validated before the token is resolved. -/
def registerStudent (token : Text) (r : Registration) (userId : UserId) : Consumed :=
  if validStudentNumber r.studentNumber = false then (s, .error .validationError)
  else match r.validatedNickname svc.nicknames with
    | none => (s, .error .validationError)
    | some nickname =>
      if r.usablePassword = false then (s, .error .validationError)
      else match s.verifyPhoneToken svc token with
        | (s', .error e) => (s', .error e)
        | (s', .ok proof) =>
          if proof.purpose ≠ some .register then (s', .error .otpTokenInvalid)
          else s'.insertStudent svc proof.phone nickname r userId

def registerByPhone (token : Text) (r : Registration) (userId : UserId) : Consumed :=
  match s.entries.get (svc.hashText token) with
  | none => (s, .error .mobileCodeInvalid)
  | some phone =>
    let s' := { s with entries := s.entries.remove (svc.hashText token) }
    if validStudentNumber r.studentNumber = false then (s', .error .valueError)
    else if r.usablePassword = false then (s', .error .valueError)
    else s'.insertStudent svc phone r.strippedNickname r userId

def staffError : IdentityError → ConsumerError
  | .validationError => .validationError
  | e => .invitation e

def acceptInvitation (token : Text) (password : Option Text) (userId : UserId) (fresh : Fresh)
    (context : Option AuditContext) : Consumed :=
  match requireUsablePassword password with
  | .error e => (s, .error (staffError e))
  | .ok () =>
    match s.staff.invitations.find fun _ i =>
        i.tokenHash = svc.staff.sessions.hashRefreshToken token with
    | none => (s, .error (.invitation .authenticationRequired))
    | some (id, row) =>
      match svc.staff.acceptStaffInvitation s.staff id row token password userId fresh
          s.phones.clock context with
      | .error e => (s, .error (staffError e))
      | .ok (_, staff) => ({ s with staff := staff }, .ok ())

def confirmPasswordReset (id : OtpId) (code fresh password : Text) : Consumed :=
  if passwordLengthValid password = false then (s, .error .validationError)
  else match s.verifyPhoneChallenge svc id code fresh with
    | (s', .error e) => (s', .error e)
    | (s', .ok token) =>
      match s'.verifyPhoneToken svc token with
      | (s'', .error e) => (s'', .error e)
      | (s'', .ok proof) =>
        if proof.purpose ≠ some .passwordReset then (s'', .error .otpTokenInvalid)
        else match s''.staff.db.users.find fun _ u => u.phoneE164 = some proof.phone with
          | none => (s'', .error .otpTokenInvalid)
          | some (user, row) =>
            if row.role ≠ .student then (s'', .error .otpTokenInvalid)
            else (s''.resetPassword svc user row password, .ok ())

def consumePasswordReset (token password : Text) : Consumed :=
  match s.links.get (svc.hashText token) with
  | none => (s, .error .otpTokenInvalid)
  | some user =>
    let s' := { s with links := s.links.remove (svc.hashText token) }
    match s'.staff.db.users.get user with
    | none => (s', .error .otpTokenInvalid)
    | some row =>
      if row.status ≠ .active then (s', .error .otpTokenInvalid)
      else if passwordLengthValid password = false then (s', .error .valueError)
      else (s'.resetPassword svc user row password, .ok ())

end ConsumerStore

/-- A request to one of the five flows, with the rows and secrets that it may draw. -/
inductive ProofConsumer
  | registerStudent (token : Text) (r : Registration) (userId : UserId)
  | registerByPhone (token : Text) (r : Registration) (userId : UserId)
  | acceptStaffInvitation (token : Text) (password : Option Text) (userId : UserId)
      (fresh : Fresh) (context : Option AuditContext)
  | confirmPasswordReset (id : OtpId) (code fresh password : Text)
  | consumePasswordReset (token password : Text)

namespace ProofConsumer

variable (svc : ConsumerService) (s : ConsumerStore)

def run : ProofConsumer → Consumed
  | registerStudent token r userId => s.registerStudent svc token r userId
  | registerByPhone token r userId => s.registerByPhone svc token r userId
  | acceptStaffInvitation token password userId fresh context =>
    s.acceptInvitation svc token password userId fresh context
  | confirmPasswordReset id code fresh password => s.confirmPasswordReset svc id code fresh password
  | consumePasswordReset token password => s.consumePasswordReset svc token password

def Redeemable : ProofConsumer → Prop
  | registerStudent token _ _ => ∃ proof, s.phones.tokens.get (svc.phones.digest token) =
      some proof ∧ s.phones.clock < proof.expiresAt ∧ proof.purpose = some .register
  | registerByPhone token _ _ => s.entries.get (svc.hashText token) ≠ none
  | acceptStaffInvitation token _ _ _ _ => ∃ id row,
    (s.staff.invitations.find fun _ i =>
      i.tokenHash = svc.staff.sessions.hashRefreshToken token) = some (id, row) ∧
    row.acceptedAt = none ∧ row.revokedAt = none ∧ s.phones.clock < row.expiresAt
  | confirmPasswordReset id code _ _ => ∃ salt codeHash,
    OtpRecord.gate svc.phones.toOtpPolicy s.phones.clock
      ((s.phones.records.get id).map PhoneRecord.toOtpRecord) = .ok (salt, codeHash) ∧
    svc.phones.hmacHex salt code = codeHash
  | consumePasswordReset token _ => s.links.get (svc.hashText token) ≠ none

/-- The student number, the nickname or the password fails its validation; an administrator has
to choose a password. -/
def Malformed : ProofConsumer → Prop
  | registerStudent _ r _ | registerByPhone _ r _ => ¬ r.Valid svc.nicknames
  | acceptStaffInvitation token password _ _ _ =>
    password.all (fun p => p.isEmpty || passwordLengthValid p) = false ∨
      storedPassword password = none ∧ ∃ id row,
        (s.staff.invitations.find fun _ i =>
          i.tokenHash = svc.staff.sessions.hashRefreshToken token) = some (id, row) ∧
        row.role = .admin
  | confirmPasswordReset _ _ _ password | consumePasswordReset _ password =>
    passwordLengthValid password = false

def ValidatesFirst : ProofConsumer → Prop
  | registerStudent .. | acceptStaffInvitation .. | confirmPasswordReset .. => True
  | registerByPhone .. | consumePasswordReset .. => False

end ProofConsumer

section Order

variable {svc : ConsumerService} {s : ConsumerStore} {r : Registration} {token : Text}
  {userId : UserId}

theorem validatedNickname_ne_none (tables : NicknameTables) :
    r.validatedNickname tables ≠ none ↔
      (r.BlankNickname ∨ ∃ n ∈ r.nickname, tables.normalizeNickname n ≠ none) := by
  unfold Registration.validatedNickname
  by_cases hblank : r.BlankNickname
  · rw [if_pos hblank]
    exact ⟨fun _ => .inl hblank, fun _ h => (by cases h)⟩
  · rw [if_neg hblank]
    cases hnickname : r.nickname with
    | none => exact absurd (fun n hn => (by rw [hnickname] at hn; cases hn)) hblank
    | some n =>
      constructor
      · exact fun h => .inr ⟨n, rfl, h⟩
      · rintro (h | ⟨n', hn', h⟩)
        · exact absurd h hblank
        · obtain rfl := Option.some.inj hn'
          exact h

theorem registerStudent_malformed (h : ¬ r.Valid svc.nicknames) :
    s.registerStudent svc token r userId = (s, .error .validationError) := by
  unfold ConsumerStore.registerStudent
  split
  · rfl
  next hnumber =>
    cases hnickname : r.validatedNickname svc.nicknames with
    | none => rfl
    | some nickname =>
      dsimp only
      split
      · rfl
      next husable =>
        -- The three checks that were passed are the whole of the validation.
        refine absurd ⟨Bool.of_not_eq_false hnumber, ?_, Bool.of_not_eq_false husable⟩ h
        refine (validatedNickname_ne_none svc.nicknames).mp ?_
        rw [hnickname]
        exact fun h => (by cases h)

theorem acceptInvitation_malformed {password : Option Text} {fresh : Fresh}
    {context : Option AuditContext}
    (hm : (ProofConsumer.acceptStaffInvitation token password userId fresh context).Malformed svc s)
    (hr : (ProofConsumer.acceptStaffInvitation token password userId fresh context).Redeemable
      svc s) :
    s.acceptInvitation svc token password userId fresh context = (s, .error .validationError) := by
  unfold ConsumerStore.acceptInvitation
  cases husable : password.all fun p => p.isEmpty || passwordLengthValid p with
  | false =>
    have hrefused : requireUsablePassword password = .error .validationError := by
      unfold requireUsablePassword ensure
      rw [husable]
      rfl
    rw [hrefused]
    rfl
  | true =>
    have hpassed : requireUsablePassword password = .ok () := by
      unfold requireUsablePassword ensure
      rw [husable]
      rfl
    rcases hm with hband | ⟨hstored, id, row, hfind, hrole⟩
    · rw [husable] at hband
      cases hband
    obtain ⟨id', row', hfind', haccepted, hrevoked, hlive⟩ := hr
    obtain ⟨rfl, rfl⟩ := Prod.mk.inj (Option.some.inj (hfind.symm.trans hfind'))
    have hhash := (Table.find_some hfind).2
    rw [hpassed, hfind]
    have hrefused : svc.staff.acceptStaffInvitation s.staff id row token password userId fresh
        s.phones.clock context = .error .validationError := by
      have hrefuse : ¬ (row.role = .admin → storedPassword password ≠ none) :=
        fun h => h hrole hstored
      unfold StaffService.acceptStaffInvitation ensure
      rw [if_pos ⟨hhash, haccepted, hrevoked⟩, if_pos hlive, if_neg hrefuse]
      rfl
    dsimp only
    rw [hrefused]
    rfl

theorem insertStudent_entries {phone nickname : Text} :
    (s.insertStudent svc phone nickname r userId).1.entries = s.entries := by
  unfold ConsumerStore.insertStudent
  split
  · rfl
  · split
    · rfl
    · split
      · rfl
      · rfl

/-- An entry token is gone after a request, whatever the answer. -/
theorem registerByPhone_spends :
    (s.registerByPhone svc token r userId).1.entries.get (svc.hashText token) = none := by
  have hgone : (s.entries.remove (svc.hashText token)).get (svc.hashText token) = none := by
    rw [Table.get_remove, if_pos rfl]
  unfold ConsumerStore.registerByPhone
  split
  next hnone => exact hnone
  next =>
    dsimp only
    split
    · exact hgone
    · split
      · exact hgone
      · rw [insertStudent_entries]
        exact hgone

/-- A reset link is gone after a request, whatever the answer. -/
theorem consumePasswordReset_spends {password : Text} :
    (s.consumePasswordReset svc token password).1.links.get (svc.hashText token) = none := by
  have hgone : (s.links.remove (svc.hashText token)).get (svc.hashText token) = none := by
    rw [Table.get_remove, if_pos rfl]
  unfold ConsumerStore.consumePasswordReset
  split
  next hnone => exact hnone
  next =>
    dsimp only
    split
    · exact hgone
    · split
      · exact hgone
      · split
        · exact hgone
        · exact hgone

/-- A refusal that leaves the store as it is. -/
theorem kept_of_refused {call : ProofConsumer}
    (h : call.run svc s = (s, .error .validationError)) (hr : call.Redeemable svc s) :
    (call.run svc s).2 = .error .validationError ∧ call.Redeemable svc (call.run svc s).1 := by
  rw [h]
  exact ⟨rfl, hr⟩

/-- A malformed request with a redeemable proof is refused as such and leaves the proof as it was
exactly in the flows that validate first. -/
theorem malformed_keeps_proof {call : ProofConsumer} (hm : call.Malformed svc s)
    (hr : call.Redeemable svc s) :
    (call.run svc s).2 = .error .validationError ∧ call.Redeemable svc (call.run svc s).1 ↔
      call.ValidatesFirst := by
  cases call with
  | registerStudent =>
    exact ⟨fun _ => trivial, fun _ => kept_of_refused (registerStudent_malformed hm) hr⟩
  | acceptStaffInvitation =>
    exact ⟨fun _ => trivial, fun _ => kept_of_refused (acceptInvitation_malformed hm hr) hr⟩
  | confirmPasswordReset id code fresh password =>
    have hrun : s.confirmPasswordReset svc id code fresh password =
        (s, .error .validationError) := if_pos hm
    exact ⟨fun _ => trivial, fun _ => kept_of_refused hrun hr⟩
  | registerByPhone token r userId =>
    refine ⟨fun h => absurd registerByPhone_spends h.2, fun h => h.elim⟩
  | consumePasswordReset token password =>
    refine ⟨fun h => absurd consumePasswordReset_spends h.2, fun h => h.elim⟩

end Order

section Example

def plainConsumers : ConsumerService where
  nicknames := ⟨fun _ => false, fun _ => false, List.length⟩
  phones := plainProofs
  staff := ⟨plainSessions, id, 1000⟩
  hashText := id

/-- An entry token and a registration token, both live. -/
def provenPhones : ConsumerStore where
  phones := proven
  entries := Table.empty.put ['e'] ['1']
  links := .empty
  staff := ⟨Db.empty, .empty⟩

def shortNumber : Registration := ⟨['1'], none, none⟩

theorem shortNumber_invalid : ¬ shortNumber.Valid plainConsumers.nicknames :=
  fun h => absurd h.1 (by decide)

end Example

/-- A short student number costs the entry token. -/
theorem short_number_burns :
    ¬ ∀ (svc : ConsumerService) (s : ConsumerStore) (call : ProofConsumer),
      call.Malformed svc s → call.Redeemable svc s →
      (call.run svc s).2 = .error .validationError ∧ call.Redeemable svc (call.run svc s).1 := by
  intro hall
  have hkept := hall plainConsumers provenPhones (.registerByPhone ['e'] shortNumber 1)
    shortNumber_invalid (fun h => (by cases h))
  exact hkept.2 registerByPhone_spends

/-- The same number with the token of the other registration. -/
theorem short_number_kept :
    (provenPhones.registerStudent plainConsumers ['t'] shortNumber 1).2 =
      .error .validationError := by
  have hkept := (@malformed_keeps_proof plainConsumers provenPhones
    (.registerStudent ['t'] shortNumber 1) shortNumber_invalid
    ⟨_, rfl, by decide, rfl⟩).mpr trivial
  exact hkept.1

end CampusQuest.Identity
