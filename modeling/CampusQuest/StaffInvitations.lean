import CampusQuest.Locking
import CampusQuest.StaffService

/-!
The life cycle of a staff invitation under any interleaving of accept, revoke and resend.
A call is checked, finds its row in a snapshot, waits for the row lock and is then judged
on the locked row; an acceptance needs a row that is neither accepted nor revoked nor
expired and that carries the digest of the presented token.
-/

namespace CampusQuest.Identity

open Guards Locking Runs Tables

inductive InvitationCall
  | accept (token : Text) (password : Option Text) (userId : UserId) (fresh : Fresh)
      (now : Instant) (context : Option AuditContext)
  | revoke (id : InvitationId) (actor : Actor) (now : Instant) (context : Option AuditContext)
  | resend (id : InvitationId) (actor : Actor) (secret : Text) (now : Instant)
      (context : Option AuditContext)

inductive InvitationAnswer
  | accepted (session : PendingStaffSession)
  | revoked
  | resent (token : Text)

namespace InvitationCall

def gate : InvitationCall → Except IdentityError Unit
  | accept _ password _ _ _ _ => requireUsablePassword password
  | revoke _ actor _ _ => ensure (actor.role = .admin) .permissionDenied
  | resend _ actor _ _ _ => ensure (actor.role = .admin) .permissionDenied

def lookup (svc : StaffService) (s : StaffDb) : InvitationCall → Option InvitationId
  | accept token _ _ _ _ _ =>
    (s.invitations.find fun _ r =>
      r.tokenHash = svc.sessions.hashRefreshToken token).map Prod.fst
  | revoke id _ _ _ => (s.invitations.get id).map fun _ => id
  | resend id _ _ _ _ => (s.invitations.get id).map fun _ => id

def missing : InvitationCall → IdentityError
  | accept .. => .authenticationRequired
  | revoke .. => .notFound
  | resend .. => .notFound

def perform (svc : StaffService) (s : StaffDb) (id : InvitationId) (row : StaffInvitation) :
    InvitationCall → Except IdentityError (InvitationAnswer × StaffDb)
  | accept token password userId fresh now context => do
    let (session, s') ←
      svc.acceptStaffInvitation s id row token password userId fresh now context
    .ok (.accepted session, s')
  | revoke _ actor now context => do
    let s' ← StaffService.revokeInvitation s id row actor now context
    .ok (.revoked, s')
  | resend _ actor secret now context => do
    let s' ← svc.resendInvitation s id row actor secret now context
    .ok (.resent secret, s')

end InvitationCall

/-- A request at work: between calls, waiting for a row lock, or holding one with the row it
has read. -/
inductive InvitationRequest
  | idle
  | waiting (id : InvitationId) (call : InvitationCall)
  | holding (id : InvitationId) (row : StaffInvitation) (call : InvitationCall)

/-- What a commit or a refusal reports; `others` is a commit of another service, which
inserts invitations and writes to every other table. -/
inductive InvitationEvent
  | done (id : InvitationId) (call : InvitationCall) (answer : InvitationAnswer)
  | refused (call : InvitationCall) (e : IdentityError)
  | others

inductive InvitationRead (svc : StaffService) :
    InvitationRequest → StaffDb → InvitationRequest → Prop
  | find {s : StaffDb} (call : InvitationCall) (id : InvitationId) (hgate : call.gate = .ok ())
      (hlookup : call.lookup svc s = some id) :
      InvitationRead svc .idle s (.waiting id call)
  | lock {s : StaffDb} (id : InvitationId) (row : StaffInvitation) (call : InvitationCall)
      (hget : s.invitations.get id = some row) :
      InvitationRead svc (.waiting id call) s (.holding id row call)
  | crash (m : InvitationRequest) {s : StaffDb} : InvitationRead svc m s .idle

inductive InvitationCommit (svc : StaffService) :
    InvitationRequest → StaffDb → InvitationEvent → InvitationRequest → StaffDb → Prop
  | unfit {s : StaffDb} (call : InvitationCall) (e : IdentityError)
      (hgate : call.gate = .error e) : InvitationCommit svc .idle s (.refused call e) .idle s
  | unknown {s : StaffDb} (call : InvitationCall) (hgate : call.gate = .ok ())
      (hlookup : call.lookup svc s = none) :
      InvitationCommit svc .idle s (.refused call call.missing) .idle s
  | refused {s : StaffDb} (id : InvitationId) (row : StaffInvitation) (call : InvitationCall)
      (e : IdentityError) (h : call.perform svc s id row = .error e) :
      InvitationCommit svc (.holding id row call) s (.refused call e) .idle s
  | done {s s' : StaffDb} (id : InvitationId) (row : StaffInvitation) (call : InvitationCall)
      (answer : InvitationAnswer) (h : call.perform svc s id row = .ok (answer, s')) :
      InvitationCommit svc (.holding id row call) s (.done id call answer) .idle s'
  | others {s s' : StaffDb} (h : ∀ id row, s.invitations.get id = some row →
      s'.invitations.get id = some row) :
      InvitationCommit svc .idle s .others .idle s'

/-- The calls as transactions: the row lock is held from the locked read to the commit. -/
def invitationProtocol (svc : StaffService) :
    Protocol StaffDb InvitationId InvitationRequest InvitationEvent where
  locks m k := ∃ row call, m = .holding k row call
  known m s := ∀ id row call, m = .holding id row call → s.invitations.get id = some row
  start m := m = .idle
  read := InvitationRead svc
  commit := InvitationCommit svc

section Spec

variable {svc : StaffService} {s s' : StaffDb} {id : InvitationId} {row : StaffInvitation}
  {now : Instant} {context : Option AuditContext}

structure Accepts (svc : StaffService) (s : StaffDb) (id : InvitationId) (row : StaffInvitation)
    (token : Text) (password : Option Text) (userId : UserId) (now : Instant) (s' : StaffDb) :
    Prop where
  token : row.tokenHash = svc.sessions.hashRefreshToken token
  unaccepted : row.acceptedAt = none
  unrevoked : row.revokedAt = none
  unexpired : now < row.expiresAt
  newAccount : s.db.users.get userId = none
  users : s'.db.users = s.db.users.put userId (svc.invitedUser row password now)
  invitations : s'.invitations = s.invitations.put id { row with acceptedAt := some now }

theorem acceptStaffInvitation_ok {token : Text} {password : Option Text} {userId : UserId}
    {fresh : Fresh} {session : PendingStaffSession}
    (h : svc.acceptStaffInvitation s id row token password userId fresh now context =
      .ok (session, s')) : Accepts svc s id row token password userId now s' := by
  unfold StaffService.acceptStaffInvitation at h
  obtain ⟨⟨htoken, haccepted, hrevoked⟩, h⟩ := ensure_bind_ok.mp h
  obtain ⟨hexpiry, h⟩ := ensure_bind_ok.mp h
  obtain ⟨_, h⟩ := ensure_bind_ok.mp h
  obtain ⟨_, h⟩ := ensure_bind_ok.mp h
  obtain ⟨⟨hfree, _⟩, h⟩ := ensure_bind_ok.mp h
  obtain ⟨⟨tokens, db⟩, hissue, h⟩ := bind_ok.mp h
  unfold SessionService.issueSession at hissue
  obtain ⟨_, hissue⟩ := ensure_bind_ok.mp hissue
  rw [Except.ok.injEq, Prod.mk.injEq] at hissue h
  obtain ⟨_, rfl⟩ := hissue
  obtain ⟨_, rfl⟩ := h
  exact ⟨htoken, haccepted, hrevoked, hexpiry, hfree, rfl, rfl⟩

theorem revokeInvitation_ok {actor : Actor}
    (h : StaffService.revokeInvitation s id row actor now context = .ok s') :
    row.acceptedAt = none ∧ s'.db.users = s.db.users ∧
      s'.invitations = s.invitations.put id { row with revokedAt := some now } := by
  unfold StaffService.revokeInvitation at h
  obtain ⟨⟨haccepted, _⟩, h⟩ := ensure_bind_ok.mp h
  obtain rfl := Except.ok.inj h
  exact ⟨haccepted, rfl, rfl⟩

theorem resendInvitation_ok {actor : Actor} {secret : Text}
    (h : svc.resendInvitation s id row actor secret now context = .ok s') :
    row.acceptedAt = none ∧ s'.db.users = s.db.users ∧
      s'.invitations = s.invitations.put id { row with
        tokenHash := svc.sessions.hashRefreshToken secret
        expiresAt := now + svc.invitationTtl
        revokedAt := none } := by
  unfold StaffService.resendInvitation at h
  obtain ⟨haccepted, h⟩ := ensure_bind_ok.mp h
  obtain ⟨_, h⟩ := ensure_bind_ok.mp h
  obtain rfl := Except.ok.inj h
  exact ⟨haccepted, rfl, rfl⟩

/-- Every call that ends rewrites its own row and no other. -/
theorem perform_invitations {call : InvitationCall} {answer : InvitationAnswer}
    (h : call.perform svc s id row = .ok (answer, s')) :
    ∃ row', s'.invitations = s.invitations.put id row' := by
  cases call with
  | accept token password userId fresh now context =>
    obtain ⟨⟨session, s₁⟩, haccept, h⟩ := bind_ok.mp h
    rw [Except.ok.injEq, Prod.mk.injEq] at h
    obtain ⟨_, rfl⟩ := h
    exact ⟨_, (acceptStaffInvitation_ok haccept).invitations⟩
  | revoke _ actor now context =>
    obtain ⟨s₁, hrevoke, h⟩ := bind_ok.mp h
    rw [Except.ok.injEq, Prod.mk.injEq] at h
    obtain ⟨_, rfl⟩ := h
    exact ⟨_, (revokeInvitation_ok hrevoke).2.2⟩
  | resend _ actor secret now context =>
    obtain ⟨s₁, hresend, h⟩ := bind_ok.mp h
    rw [Except.ok.injEq, Prod.mk.injEq] at h
    obtain ⟨_, rfl⟩ := h
    exact ⟨_, (resendInvitation_ok hresend).2.2⟩

end Spec

section Protocol

variable {svc : StaffService}

theorem invitationProtocol_sound (svc : StaffService) :
    (invitationProtocol svc).Sound fun _ => True := by
  constructor
  · rintro m k rfl ⟨row, call, hholding⟩
    cases hholding
  · rintro m s rfl id row call hholding
    cases hholding
  · intro m s m' _ hread id row call hholding
    cases hread with
    | find => cases hholding
    | crash => cases hholding
    | lock id' row' call' hget =>
      obtain ⟨rfl, rfl, rfl⟩ := InvitationRequest.holding.inj hholding
      exact hget
  · intro m s a m' s' _ _ _
    trivial
  · intro m s a m' s' _ _ hcommit id row call hholding
    cases hcommit <;> cases hholding
  · intro m s a m' s' o _ _ hcommit hknown hdisjoint id row call hholding
    have hget := hknown id row call hholding
    cases hcommit with
    | unfit => exact hget
    | unknown => exact hget
    | refused => exact hget
    | others hkeep => exact hkeep id row hget
    | done id' row' call' answer hperform =>
      obtain ⟨new, hnew⟩ := perform_invitations hperform
      have hne : id ≠ id' := by
        rintro rfl
        exact hdisjoint id ⟨row', call', rfl⟩ ⟨row, call, hholding⟩
      rw [hnew, Table.get_put_of_ne _ _ hne]
      exact hget

inductive Judged (svc : StaffService) (s : StaffDb) : InvitationEvent → StaffDb → Prop
  | refused (call : InvitationCall) (e : IdentityError) : Judged svc s (.refused call e) s
  | others {s' : StaffDb} (h : ∀ id row, s.invitations.get id = some row →
      s'.invitations.get id = some row) : Judged svc s .others s'
  | done {s' : StaffDb} (id : InvitationId) (row : StaffInvitation) (call : InvitationCall)
      (answer : InvitationAnswer) (hget : s.invitations.get id = some row)
      (hperform : call.perform svc s id row = .ok (answer, s')) :
      Judged svc s (.done id call answer) s'

def invitationSystem (svc : StaffService) (ι : Type*) [DecidableEq ι] :
    System (Config ι StaffDb InvitationRequest) (Move ι InvitationEvent) :=
  (invitationProtocol svc).system ι fun _ => True

variable {ι : Type*} [DecidableEq ι]

/-- The locked row is still the stored one when a call is judged. -/
theorem invitationSystem_step {c c' : Config ι StaffDb InvitationRequest} {i : ι}
    {event : Option InvitationEvent} (hc : (invitationSystem svc ι).Reach c)
    (hstep : (invitationSystem svc ι).step c (i, event) c') :
    (event = none ∧ c'.store = c.store) ∨
      ∃ ev, event = some ev ∧ Judged svc c.store ev c'.store := by
  have hcurrent := (invitationProtocol_sound svc).current (fun _ _ => trivial) hc
  cases hstep with
  | read => exact Or.inl ⟨rfl, rfl⟩
  | commit _ ev m s' hcommit hfree =>
    refine Or.inr ⟨ev, rfl, ?_⟩
    generalize hm : c.proc i = m₀ at hcommit
    cases hcommit with
    | unfit call e => exact .refused call e
    | unknown call => exact .refused call call.missing
    | refused id row call e => exact .refused call e
    | others hkeep => exact .others hkeep
    | done id row call answer hperform =>
      exact .done id row call answer (hcurrent.known i id row call hm) hperform

end Protocol

section LifeCycle

variable {svc : StaffService} {s s' : StaffDb} {id : InvitationId}

def InvitationEvent.AcceptsWith (id : InvitationId) (token : Text) (now : Instant)
    (ev : InvitationEvent) : Prop :=
  ∃ password userId fresh context session,
    ev = .done id (.accept token password userId fresh now context) (.accepted session)

def InvitationEvent.Accepts (id : InvitationId) (ev : InvitationEvent) : Prop :=
  ∃ token now, ev.AcceptsWith id token now

def InvitationEvent.Revokes (id : InvitationId) (ev : InvitationEvent) : Prop :=
  ∃ call, ev = .done id call .revoked

def InvitationEvent.ResendsWith (id : InvitationId) (secret : Text) (ev : InvitationEvent) : Prop :=
  ∃ call, ev = .done id call (.resent secret)

def InvitationEvent.Resends (id : InvitationId) (ev : InvitationEvent) : Prop :=
  ∃ secret, ev.ResendsWith id secret

def Does {ι : Type*} (p : InvitationEvent → Prop) (m : Move ι InvitationEvent) : Prop :=
  ∃ ev, m.2 = some ev ∧ p ev

def StaffDb.Row (s : StaffDb) (id : InvitationId) (P : StaffInvitation → Prop) : Prop :=
  ∃ row, s.invitations.get id = some row ∧ P row

/-- A call that ends with an answer is of the answer's kind, with the row it met and the row
it left. -/
theorem Judged.done_cases {call : InvitationCall} {answer : InvitationAnswer}
    (h : Judged svc s (.done id call answer) s') :
    ∃ row, s.invitations.get id = some row ∧
      ((∃ token password userId fresh now context session,
          call = .accept token password userId fresh now context ∧ answer = .accepted session ∧
          Accepts svc s id row token password userId now s') ∨
        (∃ target actor now context, call = .revoke target actor now context ∧
          answer = .revoked ∧ row.acceptedAt = none ∧ s'.db.users = s.db.users ∧
          s'.invitations = s.invitations.put id { row with revokedAt := some now }) ∨
        (∃ target actor secret now context, call = .resend target actor secret now context ∧
          answer = .resent secret ∧ row.acceptedAt = none ∧ s'.db.users = s.db.users ∧
          s'.invitations = s.invitations.put id { row with
            tokenHash := svc.sessions.hashRefreshToken secret
            expiresAt := now + svc.invitationTtl
            revokedAt := none })) := by
  cases h with
  | done _ row _ _ hget hperform =>
    refine ⟨row, hget, ?_⟩
    cases call with
    | accept token password userId fresh now context =>
      obtain ⟨⟨session, s₁⟩, haccept, hrest⟩ := bind_ok.mp hperform
      rw [Except.ok.injEq, Prod.mk.injEq] at hrest
      obtain ⟨rfl, rfl⟩ := hrest
      exact Or.inl ⟨token, password, userId, fresh, now, context, session, rfl, rfl,
        acceptStaffInvitation_ok haccept⟩
    | revoke target actor now context =>
      obtain ⟨s₁, hrevoke, hrest⟩ := bind_ok.mp hperform
      rw [Except.ok.injEq, Prod.mk.injEq] at hrest
      obtain ⟨rfl, rfl⟩ := hrest
      exact Or.inr (Or.inl ⟨target, actor, now, context, rfl, rfl, revokeInvitation_ok hrevoke⟩)
    | resend target actor secret now context =>
      obtain ⟨s₁, hresend, hrest⟩ := bind_ok.mp hperform
      rw [Except.ok.injEq, Prod.mk.injEq] at hrest
      obtain ⟨rfl, rfl⟩ := hrest
      exact Or.inr (Or.inr ⟨target, actor, secret, now, context, rfl, rfl,
        resendInvitation_ok hresend⟩)

/-- The row that a call met and the one it left. -/
theorem Judged.keeps_row {P : StaffInvitation → Prop} {ev : InvitationEvent}
    (h : Judged svc s ev s') (hP : s.Row id P)
    (hrow : ∀ call answer row row', ev = .done id call answer →
      Judged svc s (.done id call answer) s' → s.invitations.get id = some row → P row →
      s'.invitations = s.invitations.put id row' → P row') : s'.Row id P := by
  obtain ⟨row, hget, hrowP⟩ := hP
  have hjudged := h
  cases h with
  | refused => exact ⟨row, hget, hrowP⟩
  | others hkeep => exact ⟨row, hkeep id row hget, hrowP⟩
  | done id' row₀ call answer hget' hperform =>
    obtain ⟨row', hrow'⟩ := perform_invitations hperform
    by_cases hid : id' = id
    · subst hid
      refine ⟨row', ?_, hrow call answer row row' rfl hjudged hget hrowP hrow'⟩
      rw [hrow', Table.get_put_self]
    · refine ⟨row, ?_, hrowP⟩
      rw [hrow', Table.get_put_of_ne _ _ (Ne.symm hid), hget]

/-- The rows that two descriptions of one write put are equal. -/
theorem put_row_inj {t : Table InvitationId StaffInvitation} {row row' : StaffInvitation}
    (h : t.put id row = t.put id row') : row = row' := by
  have hget := Table.get_put_self t id row
  rw [h, Table.get_put_self, Option.some.injEq] at hget
  exact hget.symm

/-- An accepted invitation is not written again. -/
theorem accepted_keeps {ev : InvitationEvent} (h : Judged svc s ev s')
    (hrow : s.Row id fun row => row.acceptedAt ≠ none) :
    s'.Row id fun row => row.acceptedAt ≠ none := by
  refine h.keeps_row hrow fun call answer row row' _ hdone hget haccepted _ => ?_
  obtain ⟨row₀, hget₀, hcases⟩ := hdone.done_cases
  rw [hget, Option.some.injEq] at hget₀
  subst hget₀
  rcases hcases with ⟨_, _, _, _, _, _, _, _, _, haccepts⟩ | ⟨_, _, _, _, _, _, hnone, _⟩ |
    ⟨_, _, _, _, _, _, _, hnone, _⟩
  · exact absurd haccepts.unaccepted haccepted
  · exact absurd hnone haccepted
  · exact absurd hnone haccepted

/-- Only a resend clears a revocation. -/
theorem revoked_keeps {ev : InvitationEvent} (h : Judged svc s ev s') (hev : ¬ ev.Resends id)
    (hrow : s.Row id fun row => row.revokedAt ≠ none) :
    s'.Row id fun row => row.revokedAt ≠ none := by
  refine h.keeps_row hrow fun call answer row row' heq hdone hget hrevoked hput => ?_
  obtain ⟨row₀, hget₀, hcases⟩ := hdone.done_cases
  rw [hget, Option.some.injEq] at hget₀
  subst hget₀
  rcases hcases with ⟨_, _, _, _, _, _, _, _, _, haccepts⟩ | ⟨_, _, now, _, _, _, _, _, hnew⟩ |
    ⟨_, _, secret, _, _, _, rfl, _⟩
  · exact absurd haccepts.unrevoked hrevoked
  · rw [put_row_inj (hput.symm.trans hnew)]
    simp
  · exact absurd ⟨secret, call, heq⟩ hev

theorem token_keeps {ev : InvitationEvent} {digest : Text} (h : Judged svc s ev s')
    (hev : ¬ ev.Resends id) (hrow : s.Row id fun row => row.tokenHash = digest) :
    s'.Row id fun row => row.tokenHash = digest := by
  refine h.keeps_row hrow fun call answer row row' heq hdone hget hdigest hput => ?_
  obtain ⟨row₀, hget₀, hcases⟩ := hdone.done_cases
  rw [hget, Option.some.injEq] at hget₀
  subst hget₀
  rcases hcases with ⟨_, _, _, _, _, _, _, _, _, haccepts⟩ | ⟨_, _, now, _, _, _, _, _, hnew⟩ |
    ⟨_, _, secret, _, _, _, rfl, _⟩
  · rw [put_row_inj (hput.symm.trans haccepts.invitations)]
    exact hdigest
  · rw [put_row_inj (hput.symm.trans hnew)]
    exact hdigest
  · exact absurd ⟨secret, call, heq⟩ hev

/-- What an accepting event has met and written. -/
theorem Judged.accepts {ev : InvitationEvent} {token : Text} {now : Instant}
    (h : Judged svc s ev s') (hev : ev.AcceptsWith id token now) :
    ∃ row password userId, s.invitations.get id = some row ∧
      Accepts svc s id row token password userId now s' := by
  obtain ⟨password, userId, fresh, context, session, rfl⟩ := hev
  obtain ⟨row, hget, hcases⟩ := h.done_cases
  rcases hcases with ⟨_, _, _, _, _, _, _, hcall, _, haccepts⟩ | ⟨_, _, _, _, hcall, _⟩ |
    ⟨_, _, _, _, _, hcall, _⟩
  · obtain ⟨rfl, rfl, rfl, _, rfl, _⟩ := InvitationCall.accept.inj hcall
    exact ⟨row, password, userId, hget, haccepts⟩
  · cases hcall
  · cases hcall

/-- An event that does not accept leaves the accounts to the other services. -/
theorem Judged.users {call : InvitationCall} {answer : InvitationAnswer}
    (h : Judged svc s (.done id call answer) s')
    (hev : ¬ InvitationEvent.Accepts id (.done id call answer)) : s'.db.users = s.db.users := by
  obtain ⟨row, _, hcases⟩ := h.done_cases
  rcases hcases with ⟨token, password, userId, fresh, now, context, session, rfl, rfl, _⟩ |
    ⟨_, _, _, _, _, _, _, husers, _⟩ | ⟨_, _, _, _, _, _, _, _, husers, _⟩
  · exact absurd ⟨token, now, password, userId, fresh, context, session, rfl⟩ hev
  · exact husers
  · exact husers

theorem Judged.refused_eq {call : InvitationCall} {e : IdentityError}
    (h : Judged svc s (.refused call e) s') : s' = s := by
  cases h
  rfl

theorem Judged.revokes {ev : InvitationEvent} (h : Judged svc s ev s') (hev : ev.Revokes id) :
    s'.Row id fun row => row.revokedAt ≠ none := by
  obtain ⟨call, rfl⟩ := hev
  obtain ⟨row, _, hcases⟩ := h.done_cases
  rcases hcases with ⟨_, _, _, _, _, _, _, _, hanswer, _⟩ | ⟨_, _, now, _, _, _, _, _, hnew⟩ |
    ⟨_, _, _, _, _, _, hanswer, _⟩
  · cases hanswer
  · refine ⟨{ row with revokedAt := some now }, ?_, by simp⟩
    rw [hnew, Table.get_put_self]
  · cases hanswer

theorem Judged.resends {ev : InvitationEvent} {secret : Text} (h : Judged svc s ev s')
    (hev : ev.ResendsWith id secret) :
    s'.Row id fun row => row.tokenHash = svc.sessions.hashRefreshToken secret := by
  obtain ⟨call, rfl⟩ := hev
  obtain ⟨row, _, hcases⟩ := h.done_cases
  rcases hcases with ⟨_, _, _, _, _, _, _, _, hanswer, _⟩ | ⟨_, _, _, _, _, hanswer, _⟩ |
    ⟨_, _, sent, now, _, _, hanswer, _, _, hnew⟩
  · cases hanswer
  · cases hanswer
  · obtain rfl := InvitationAnswer.resent.inj hanswer
    unfold StaffDb.Row
    rw [hnew]
    exact ⟨_, Table.get_put_self _ _ _, rfl⟩

end LifeCycle

section Runs

variable {svc : StaffService} {ι : Type*} [DecidableEq ι]
  {c c' : Config ι StaffDb InvitationRequest}

/-- A move that commits an event was judged on the state it met. -/
theorem judged_of_step {m : Move ι InvitationEvent} {p : InvitationEvent → Prop}
    (hc : (invitationSystem svc ι).Reach c) (hstep : (invitationSystem svc ι).step c m c')
    (hm : Does p m) : ∃ ev, p ev ∧ Judged svc c.store ev c'.store := by
  obtain ⟨ev, hev, hp⟩ := hm
  obtain ⟨i, event⟩ := m
  rcases invitationSystem_step hc hstep with ⟨hnone, _⟩ | ⟨ev', hsome, hjudged⟩
  · rw [hnone] at hev
    cases hev
  · rw [hsome] at hev
    obtain rfl := Option.some.inj hev
    exact ⟨ev', hp, hjudged⟩

/-- What every event of a kind keeps is kept by a run whose commits are all of that kind. -/
theorem run_keeps {P : StaffDb → Prop} {q : InvitationEvent → Prop}
    (hP : ∀ s ev s', Judged svc s ev s' → ¬ q ev → P s → P s')
    (hc : (invitationSystem svc ι).Reach c)
    {l : List (Config ι StaffDb InvitationRequest × Move ι InvitationEvent ×
      Config ι StaffDb InvitationRequest)} (hrun : (invitationSystem svc ι).Run c l c')
    (hl : ∀ e ∈ l, ¬ Does q e.2.1) (h : P c.store) : P c'.store := by
  induction hrun with
  | nil => exact h
  | @snoc s₁ s₂ m l hrun hstep ih =>
    have hbefore := ih fun e he => hl e (List.mem_append_left _ he)
    have hlast : ¬ Does q m := hl (s₁, m, s₂) (List.mem_append_right _ (List.mem_singleton_self _))
    obtain ⟨i, event⟩ := m
    rcases invitationSystem_step (hrun.reach hc) hstep with ⟨_, hsame⟩ | ⟨ev, rfl, hjudged⟩
    · rw [hsame]
      exact hbefore
    · exact hP _ ev _ hjudged (fun hq => hlast ⟨ev, rfl, hq⟩) hbefore

end Runs

/-- The life cycle of every invitation, whatever the interleaving: one acceptance at most,
which creates one account; no acceptance after a revocation until a resend; after a resend
only its token; never an expired token; and a refused call changes nothing. -/
theorem invitation_life_cycle (svc : StaffService) (ι : Type*) [DecidableEq ι] :
    (∀ c, (invitationSystem svc ι).Reach c → ∀ l c', (invitationSystem svc ι).Run c l c' →
      ∀ id, l.Pairwise fun e e' => ¬ (Does (InvitationEvent.Accepts id) e.2.1 ∧
        Does (InvitationEvent.Accepts id) e'.2.1)) ∧
    (∀ c, (invitationSystem svc ι).Reach c → ∀ m c', (invitationSystem svc ι).step c m c' →
      (∀ id, Does (InvitationEvent.Accepts id) m → ∃ userId user,
        c.store.db.users.get userId = none ∧
          c'.store.db.users = c.store.db.users.put userId user) ∧
      (∀ id call answer, m.2 = some (.done id call answer) →
        ¬ Does (InvitationEvent.Accepts id) m → c'.store.db.users = c.store.db.users) ∧
      (∀ id token now, Does (InvitationEvent.AcceptsWith id token now) m →
        c.store.Row id fun row => now < row.expiresAt) ∧
      (∀ call e, m.2 = some (.refused call e) → c'.store = c.store)) ∧
    (∀ c, (invitationSystem svc ι).Reach c → ∀ m c₁, (invitationSystem svc ι).step c m c₁ →
      ∀ l c₂, (invitationSystem svc ι).Run c₁ l c₂ → ∀ m' c₃,
      (invitationSystem svc ι).step c₂ m' c₃ →
      ∀ id, (∀ e ∈ l, ¬ Does (InvitationEvent.Resends id) e.2.1) →
        (Does (InvitationEvent.Revokes id) m → ¬ Does (InvitationEvent.Accepts id) m') ∧
        (∀ secret token now, Does (InvitationEvent.ResendsWith id secret) m →
          Does (InvitationEvent.AcceptsWith id token now) m' →
          svc.sessions.hashRefreshToken token = svc.sessions.hashRefreshToken secret)) := by
  refine ⟨?_, ?_, ?_⟩
  · intro c hc l c' hrun id
    refine (hrun.at_most_once (Q := fun c => c.store.Row id fun row => row.acceptedAt ≠ none)
      (Y := fun e => Does (InvitationEvent.Accepts id) e.2.1) ?_ ?_ hc).1
    · rintro u ⟨i, event⟩ u' hu hstep hrow
      rcases invitationSystem_step hu hstep with ⟨_, hsame⟩ | ⟨ev, _, hjudged⟩
      · rw [hsame]
        exact hrow
      · exact accepted_keeps hjudged hrow
    · intro u m u' hu hstep hm
      obtain ⟨ev, ⟨token, now, hev⟩, hjudged⟩ := judged_of_step hu hstep hm
      obtain ⟨row, password, userId, hget, haccepts⟩ := hjudged.accepts hev
      constructor
      · rintro ⟨row', hget', haccepted⟩
        rw [hget, Option.some.injEq] at hget'
        exact haccepted (hget' ▸ haccepts.unaccepted)
      · refine ⟨{ row with acceptedAt := some now }, ?_, by simp⟩
        rw [haccepts.invitations, Table.get_put_self]
  · intro c hc m c' hstep
    refine ⟨?_, ?_, ?_, ?_⟩
    · intro id hm
      obtain ⟨ev, ⟨token, now, hev⟩, hjudged⟩ := judged_of_step hc hstep hm
      obtain ⟨row, password, userId, _, haccepts⟩ := hjudged.accepts hev
      exact ⟨userId, _, haccepts.newAccount, haccepts.users⟩
    · intro id call answer hm hnot
      obtain ⟨ev, rfl, hjudged⟩ := judged_of_step hc hstep ⟨_, hm, rfl⟩
      exact hjudged.users fun haccepts => hnot ⟨_, hm, haccepts⟩
    · intro id token now hm
      obtain ⟨ev, hev, hjudged⟩ := judged_of_step hc hstep hm
      obtain ⟨row, password, userId, hget, haccepts⟩ := hjudged.accepts hev
      exact ⟨row, hget, haccepts.unexpired⟩
    · intro call e hm
      obtain ⟨ev, rfl, hjudged⟩ := judged_of_step hc hstep ⟨_, hm, rfl⟩
      exact hjudged.refused_eq
  · intro c hc m c₁ hstep l c₂ hrun m' c₃ hstep' id hl
    have hc₁ := System.Reach.step hc hstep
    have hc₂ := hrun.reach hc₁
    constructor
    · intro hm hm'
      obtain ⟨ev, hev, hjudged⟩ := judged_of_step hc hstep hm
      obtain ⟨row, hget, hrevoked⟩ := run_keeps (q := InvitationEvent.Resends id)
        (fun s ev s' h hnot => revoked_keeps h hnot) hc₁ hrun hl (hjudged.revokes hev)
      obtain ⟨ev', ⟨token, now, hev'⟩, hjudged'⟩ := judged_of_step hc₂ hstep' hm'
      obtain ⟨row', _, _, hget', haccepts⟩ := hjudged'.accepts hev'
      rw [hget, Option.some.injEq] at hget'
      exact hrevoked (hget' ▸ haccepts.unrevoked)
    · intro secret token now hm hm'
      obtain ⟨ev, hev, hjudged⟩ := judged_of_step hc hstep hm
      obtain ⟨row, hget, hdigest⟩ := run_keeps (q := InvitationEvent.Resends id)
        (fun s ev s' h hnot => token_keeps h hnot) hc₁ hrun hl (hjudged.resends hev)
      obtain ⟨ev', hev', hjudged'⟩ := judged_of_step hc₂ hstep' hm'
      obtain ⟨row', _, _, hget', haccepts⟩ := hjudged'.accepts hev'
      rw [hget, Option.some.injEq] at hget'
      rw [← haccepts.token, ← hget', hdigest]

end CampusQuest.Identity
