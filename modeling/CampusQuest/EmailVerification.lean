import CampusQuest.SessionService
import CampusQuest.TwoProcesses

/-!
Binding, verifying and unbinding an email. Each call loads the account without a lock and at
its commit writes back only the columns that it changed, so a column that the call left as
it had loaded it keeps whatever another call has committed meanwhile. The token store is
apart: a token is minted behind the commit of its binding and consumed before the commit of
its confirmation. Two ghost columns say what a reader of the history would: whether a token
for the bound address was accepted since the address was bound, and how often it changed.
-/

namespace CampusQuest.Identity

open Guards Locking Runs Tables

structure EmailToken where
  userId : UserId
  email : Text
  expiresAt : Instant
  deriving DecidableEq

/-- The accounts and the token store, with the ghosts `proven` and `changes`. -/
structure MailStore where
  db : Db
  tokens : Table Text EmailToken
  proven : UserId → Bool
  changes : UserId → ℕ

structure EmailVerificationService where
  hashToken : Text → Text
  lower : Text → Text
  verifyPassword : Text → Text → Bool
  ttl : Duration

def emailMaxLength : ℕ := 320

def EmailVerificationService.normalizedEmail (svc : EmailVerificationService) (value : Text) :
    Option Text :=
  let normalized := svc.lower (strip value)
  if normalized = [] ∨ '@' ∉ normalized ∨ normalized.head? = some '@' ∨
      normalized.getLast? = some '@' ∨ emailMaxLength < normalized.length then none
  else some normalized

/-- The UPDATE of a flush: of the loaded row's columns those that the call changed are set. -/
def writeBack (loaded target row : User) : User :=
  { row with
    emailNormalized :=
      if target.emailNormalized = loaded.emailNormalized then row.emailNormalized
      else target.emailNormalized
    emailVerifiedAt :=
      if target.emailVerifiedAt = loaded.emailVerifiedAt then row.emailVerifiedAt
      else target.emailVerifiedAt }

namespace MailStore

/-- Write a row; a changed address starts a new binding. -/
def write (s : MailStore) (user : UserId) (old new : User) : MailStore :=
  let db := { s.db with users := s.db.users.put user new }
  if new.emailNormalized = old.emailNormalized then { s with db := db }
  else
    { s with
      db := db
      proven := Function.update s.proven user false
      changes := Function.update s.changes user (s.changes user + 1) }

/-- Another account holds the address: the unique index refuses the row. -/
def heldByOther (s : MailStore) (user : UserId) (email : Text) : Prop :=
  s.db.users.Any fun id row => id ≠ user ∧ row.emailNormalized = some email

/-- An accepted token, and whether the address that it proves is the bound one. -/
def accept (s : MailStore) (user : UserId) (digest email : Text) : MailStore :=
  { s with
    tokens := s.tokens.remove digest
    proven :=
      if (s.db.users.get user).any fun row => row.emailNormalized = some email then
        Function.update s.proven user true
      else s.proven }

/-- The number of the binding that the token proves, if its address is the bound one. -/
def mark (s : MailStore) (user : UserId) (email : Text) : Option ℕ :=
  if (s.db.users.get user).any fun row => row.emailNormalized = some email then
    some (s.changes user)
  else none

end MailStore

inductive EmailRequest
  | idle
  | requesting (user : UserId) (loaded : User) (email : Text)
  | checked (user : UserId) (loaded : User) (email : Text)
  | minting (user : UserId) (email : Text)
  | confirming (user : UserId) (loaded : User) (token : Text)
  | accepted (user : UserId) (loaded : User) (mark : Option ℕ)
  | unbinding (user : UserId) (loaded : User)

inductive EmailEvent
  | refused
  | bound (user : UserId)
  | minted (user : UserId)
  | consumed (user : UserId)
  | verified (user : UserId)
  | unbound (user : UserId)
  | expired

open EmailRequest

/-- The reads of the three calls; the pre-check of a binding only refuses. -/
inductive EmailRead (svc : EmailVerificationService) : EmailRequest → MailStore → EmailRequest → Prop
  | request {s : MailStore} (user : UserId) (row : User) (raw email : Text)
      (hget : s.db.users.get user = some row) (hemail : svc.normalizedEmail raw = some email) :
      EmailRead svc idle s (requesting user row email)
  | check {s : MailStore} (user : UserId) (loaded : User) (email : Text)
      (hfree : ¬ s.heldByOther user email) :
      EmailRead svc (requesting user loaded email) s (checked user loaded email)
  | confirm {s : MailStore} (user : UserId) (row : User) (token : Text)
      (hget : s.db.users.get user = some row) : EmailRead svc idle s (confirming user row token)
  | unbind {s : MailStore} (user : UserId) (row : User) (password : Text)
      (hget : s.db.users.get user = some row)
      (hpassword : row.passwordHash.any (svc.verifyPassword password) = true) :
      EmailRead svc idle s (unbinding user row)
  | rollback {s : MailStore} (m : EmailRequest) : EmailRead svc m s idle

inductive EmailCommit (svc : EmailVerificationService) :
    EmailRequest → MailStore → EmailEvent → EmailRequest → MailStore → Prop
  | refused {s : MailStore} (m : EmailRequest) : EmailCommit svc m s .refused idle s
  | bound {s : MailStore} (user : UserId) (loaded row : User) (email : Text)
      (hget : s.db.users.get user = some row) (hfree : ¬ s.heldByOther user email) :
      EmailCommit svc (checked user loaded email) s (.bound user) (minting user email)
        (s.write user row (writeBack loaded
          { loaded with emailNormalized := some email, emailVerifiedAt := none } row))
  | minted {s : MailStore} (user : UserId) (email token : Text) (now : Instant) :
      EmailCommit svc (minting user email) s (.minted user) idle
        { s with tokens := s.tokens.put (svc.hashToken token) ⟨user, email, now + svc.ttl⟩ }
  | consumed {s : MailStore} (user : UserId) (loaded : User) (token : Text) (payload : EmailToken)
      (now : Instant) (hget : s.tokens.get (svc.hashToken token) = some payload)
      (hexpiry : now < payload.expiresAt) (huser : payload.userId = user)
      (haddress : loaded.emailNormalized = some payload.email) :
      EmailCommit svc (confirming user loaded token) s (.consumed user)
        (accepted user loaded (s.mark user payload.email))
        (s.accept user (svc.hashToken token) payload.email)
  | rejected {s : MailStore} (user : UserId) (loaded : User) (token : Text) :
      EmailCommit svc (confirming user loaded token) s .refused idle
        { s with tokens := s.tokens.remove (svc.hashToken token) }
  | verified {s : MailStore} (user : UserId) (loaded row : User) (mark : Option ℕ) (now : Instant)
      (hget : s.db.users.get user = some row) :
      EmailCommit svc (accepted user loaded mark) s (.verified user) idle
        (s.write user row (writeBack loaded { loaded with emailVerifiedAt := some now } row))
  | unbound {s : MailStore} (user : UserId) (loaded row : User)
      (hget : s.db.users.get user = some row) :
      EmailCommit svc (unbinding user loaded) s (.unbound user) idle
        (s.write user row (writeBack loaded
          { loaded with emailNormalized := none, emailVerifiedAt := none } row))
  | expired {s : MailStore} (digest : Text) :
      EmailCommit svc idle s .expired idle { s with tokens := s.tokens.remove digest }

/-- The calls take no lock before they write. -/
def emailProtocol (svc : EmailVerificationService) :
    Protocol MailStore Empty EmailRequest EmailEvent where
  locks _ _ := False
  known _ _ := True
  start m := m = idle
  read := EmailRead svc
  commit := EmailCommit svc

/-- Every verified address has been proven since it was bound. -/
def VerifiedProven (s : MailStore) : Prop :=
  ∀ user row, s.db.users.get user = some row → row.emailVerifiedAt ≠ none → s.proven user = true

/-- All requests, from any accounts whose verified addresses count as proven. -/
def emailSystem (svc : EmailVerificationService) (ι : Type*) [DecidableEq ι] :
    System (Config ι MailStore EmailRequest) (Move ι EmailEvent) :=
  (emailProtocol svc).system ι VerifiedProven

/-- The condition on a step. A confirmation commits while the binding whose token it has
accepted lasts; a request or an unbinding that found the address unverified and changes it
finds it unverified still. -/
def Undisturbed {ι : Type*} (c : Config ι MailStore EmailRequest) (m : Move ι EmailEvent) : Prop :=
  match m.2, c.proc m.1 with
  | some (.verified _), accepted user _ mark => mark = some (c.store.changes user)
  | some (.bound _), checked user loaded email => loaded.emailVerifiedAt = none →
    ∀ row, c.store.db.users.get user = some row → row.emailVerifiedAt = none ∨
      loaded.emailNormalized = some email ∨ row.emailNormalized = some email
  | some (.unbound _), unbinding user loaded => loaded.emailVerifiedAt = none →
    ∀ row, c.store.db.users.get user = some row → row.emailVerifiedAt = none ∨
      loaded.emailNormalized = none ∨ row.emailNormalized = none
  | _, _ => True

/-- An accepted token proves the binding it was accepted under while that lasts. -/
def Marked (m : EmailRequest) (s : MailStore) : Prop :=
  ∀ user loaded n, m = accepted user loaded (some n) →
    n ≤ s.changes user ∧ (n = s.changes user → s.proven user = true)

section Steps

variable {svc : EmailVerificationService} {s : MailStore} {m m' : EmailRequest}

/-- A write keeps what accepted tokens prove. -/
theorem Marked.write (h : Marked m s) (user : UserId) (old new : User) :
    Marked m (s.write user old new) := by
  intro u loaded n hm
  obtain ⟨hle, hproven⟩ := h u loaded n hm
  unfold MailStore.write
  by_cases hsame : new.emailNormalized = old.emailNormalized
  · rw [if_pos hsame]
    exact ⟨hle, hproven⟩
  · rw [if_neg hsame]
    by_cases hu : u = user
    · subst hu
      simp only [Function.update_self]
      constructor
      · omega
      · omega
    · simp only [Function.update_of_ne hu]
      exact ⟨hle, hproven⟩

theorem Marked.accept (h : Marked m s) (user : UserId) (digest email : Text) :
    Marked m (s.accept user digest email) := by
  intro u loaded n hm
  obtain ⟨hle, hproven⟩ := h u loaded n hm
  refine ⟨hle, fun hn => ?_⟩
  unfold MailStore.accept
  dsimp only
  split
  · by_cases hu : u = user
    · subst hu
      exact Function.update_self ..
    · rw [Function.update_of_ne hu]
      exact hproven hn
  · exact hproven hn

/-- The token that has just been accepted. -/
theorem marked_accept (user : UserId) (loaded : User) (digest email : Text) :
    Marked (accepted user loaded (s.mark user email)) (s.accept user digest email) := by
  intro u l n hm
  obtain ⟨rfl, _, hmark⟩ := accepted.inj hm
  unfold MailStore.mark at hmark
  split at hmark
  next hbound =>
    obtain rfl := Option.some.inj hmark
    refine ⟨le_refl _, fun _ => ?_⟩
    unfold MailStore.accept
    dsimp only
    rw [if_pos hbound]
    exact Function.update_self ..
  next => cases hmark

/-- A write keeps the property when a changed address loses its verification and an
unchanged one is verified only if it is proven. -/
theorem VerifiedProven.write (h : VerifiedProven s) {user : UserId} {old new : User}
    (hnew : new.emailVerifiedAt ≠ none →
      new.emailNormalized = old.emailNormalized ∧ s.proven user = true) :
    VerifiedProven (s.write user old new) := by
  intro u row hget hverified
  unfold MailStore.write at hget ⊢
  by_cases hsame : new.emailNormalized = old.emailNormalized
  · rw [if_pos hsame] at hget ⊢
    rcases Table.get_put_eq_some hget with ⟨rfl, rfl⟩ | ⟨_, hold⟩
    · exact (hnew hverified).2
    · exact h u row hold hverified
  · rw [if_neg hsame] at hget ⊢
    rcases Table.get_put_eq_some hget with ⟨rfl, rfl⟩ | ⟨hne, hold⟩
    · exact absurd (hnew hverified).1 hsame
    · dsimp only
      rw [Function.update_of_ne hne]
      exact h u row hold hverified

theorem VerifiedProven.accept (h : VerifiedProven s) (user : UserId) (digest email : Text) :
    VerifiedProven (s.accept user digest email) := by
  intro u row hget hverified
  have hproven := h u row hget hverified
  unfold MailStore.accept
  dsimp only
  split
  · by_cases hu : u = user
    · subst hu
      exact Function.update_self ..
    · rw [Function.update_of_ne hu]
      exact hproven
  · exact hproven

/-- Clearing the address column and the verification, on the condition of the step. -/
theorem VerifiedProven.writeBack (h : VerifiedProven s) {user : UserId} {loaded row : User}
    {email : Option Text} (hget : s.db.users.get user = some row)
    (hstill : loaded.emailVerifiedAt = none → row.emailVerifiedAt = none ∨
      loaded.emailNormalized = email ∨ row.emailNormalized = email) :
    VerifiedProven (s.write user row (writeBack loaded
      { loaded with emailNormalized := email, emailVerifiedAt := none } row)) := by
  refine h.write fun hverified => ?_
  unfold Identity.writeBack at hverified ⊢
  dsimp only at hverified ⊢
  by_cases hloaded : none = loaded.emailVerifiedAt
  · rw [if_pos hloaded] at hverified
    refine ⟨?_, h user row hget hverified⟩
    rcases hstill hloaded.symm with hnone | hkept | hsame
    · exact absurd hnone hverified
    · rw [if_pos hkept.symm]
    · rw [hsame]
      split <;> rfl
  · rw [if_neg hloaded] at hverified
    exact absurd rfl hverified

/-- A commit under the condition keeps the property. -/
theorem commit_verifiedProven {ι : Type*} {c : Config ι MailStore EmailRequest} {i : ι}
    {ev : EmailEvent} {s' : MailStore} (hmark : Marked (c.proc i) c.store)
    (h : VerifiedProven c.store) (hcommit : EmailCommit svc (c.proc i) c.store ev m' s')
    (hquiet : Undisturbed c (i, some ev)) : VerifiedProven s' := by
  unfold Undisturbed at hquiet
  dsimp only at hquiet
  generalize c.proc i = m at hcommit hquiet hmark
  cases hcommit with
  | refused => exact h
  | bound user loaded row email hget hfree =>
    refine h.writeBack hget fun hnone => ?_
    rcases hquiet hnone row hget with hstill | hkept | hsame
    · exact Or.inl hstill
    · exact Or.inr (Or.inl hkept)
    · exact Or.inr (Or.inr hsame)
  | minted => exact h
  | consumed user loaded token payload now hget hexpiry huser haddress => exact h.accept _ _ _
  | rejected => exact h
  | verified user loaded row mark now hget =>
    have hproven := (hmark user loaded (c.store.changes user) (by rw [hquiet])).2 rfl
    refine h.write fun _ => ⟨?_, hproven⟩
    unfold Identity.writeBack
    rw [if_pos rfl]
  | unbound user loaded row hget => exact h.writeBack hget fun hnone => hquiet hnone row hget
  | expired => exact h

/-- A commit keeps what the accepted tokens of the others prove. -/
theorem commit_marked {ev : EmailEvent} {s' : MailStore} {o : EmailRequest} (h : Marked o s)
    (hcommit : EmailCommit svc m s ev m' s') : Marked o s' := by
  cases hcommit with
  | refused => exact h
  | bound => exact h.write _ _ _
  | minted => exact h
  | consumed => exact h.accept _ _ _
  | rejected => exact h
  | verified => exact h.write _ _ _
  | unbound => exact h.write _ _ _
  | expired => exact h

theorem commit_marked_self {ev : EmailEvent} {s' : MailStore}
    (hcommit : EmailCommit svc m s ev m' s') : Marked m' s' := by
  cases hcommit with
  | consumed user loaded token payload => exact marked_accept user loaded _ payload.email
  | _ => exact fun _ _ _ hm => (by cases hm)

theorem read_marked (hread : EmailRead svc m s m') : Marked m' s := by
  cases hread <;> exact fun _ _ _ hm => (by cases hm)

end Steps

/-- In every run whose steps are undisturbed an address is verified only if a token for it
was accepted since it was bound. -/
theorem only_proven_verified {svc : EmailVerificationService} {ι : Type*} [DecidableEq ι]
    (c : Config ι MailStore EmailRequest) (h : ((emailSystem svc ι).guarded Undisturbed).Reach c) :
    VerifiedProven c.store := by
  have hinv : VerifiedProven c.store ∧ ∀ i, Marked (c.proc i) c.store := by
    induction h with
    | init hinit =>
      refine ⟨hinit.1, fun i u loaded n hm => ?_⟩
      have hidle : _ = idle := hinit.2 i
      rw [hidle] at hm
      cases hm
    | step hreach hstep ih =>
      obtain ⟨hproven, hmarked⟩ := ih
      obtain ⟨hstep, hquiet⟩ := hstep
      cases hstep with
      | read i m hread hfree =>
        refine ⟨hproven, fun j => ?_⟩
        by_cases hj : j = i
        · subst hj
          dsimp only
          rw [Function.update_self]
          exact read_marked hread
        · dsimp only
          rw [Function.update_of_ne hj]
          exact hmarked j
      | commit i ev m s' hcommit hfree =>
        refine ⟨commit_verifiedProven (hmarked i) hproven hcommit hquiet, fun j => ?_⟩
        by_cases hj : j = i
        · subst hj
          dsimp only
          rw [Function.update_self]
          exact commit_marked_self hcommit
        · dsimp only
          rw [Function.update_of_ne hj]
          exact commit_marked (hmarked j) hcommit
  exact hinv.1

section Example

def plainMail : EmailVerificationService := ⟨id, id, fun p h => p = h, 86400000000⟩

def student : User := ⟨['s'], some ['p'], ['s'], none, some ['a', '@', 'x'], none, .student, .active⟩

/-- An account with an unverified address and the token minted for it. -/
def mailed : MailStore where
  db := { Db.empty with users := Table.empty.put 1 student }
  tokens := Table.empty.put ['t'] ⟨1, ['a', '@', 'x'], 100⟩
  proven _ := false
  changes _ := 0

theorem mailed_get : mailed.db.users.get 1 = some student := by simp [mailed]

theorem mailed_verifiedProven : VerifiedProven mailed := by
  intro user row hget hverified
  rcases Table.get_put_eq_some hget with ⟨_, rfl⟩ | ⟨_, hold⟩
  · exact absurd rfl hverified
  · rw [Table.get_empty] at hold
    cases hold

variable {G : Config Bool MailStore EmailRequest → Move Bool EmailEvent → Prop}

/-- The left request confirms: it loads the account and consumes the token. -/
theorem confirming_reaches (hG : ∀ c, G c (false, none))
    (hconsume : ∀ c, G c (false, some (.consumed 1))) :
    (emailProtocol plainMail).Reaches VerifiedProven G
      (mailed.accept 1 ['t'] ['a', '@', 'x']) (accepted 1 student (some 0)) idle := by
  have hmark : mailed.mark 1 ['a', '@', 'x'] = some 0 := by
    unfold MailStore.mark
    rw [mailed_get]
    rfl
  have hstart := Protocol.reaches_start (P := emailProtocol plainMail) (G := G)
    mailed_verifiedProven (m := idle) (n := idle) rfl rfl
  have hload := hstart.read_left (.confirm 1 student ['t'] mailed_get) (fun _ h => h.elim) (hG _)
  have hpayload : mailed.tokens.get (plainMail.hashToken ['t']) =
      some ⟨1, ['a', '@', 'x'], 100⟩ := by
    simp [mailed, plainMail]
  have hconsumed := hload.commit_left
    (.consumed 1 student ['t'] ⟨1, ['a', '@', 'x'], 100⟩ 0 hpayload (by decide) rfl rfl)
    (fun _ h => h.elim) (hconsume _)
  rw [hmark] at hconsumed
  exact hconsumed

/-- A new address is bound between the consumption of the token and the commit of the
confirmation: the new address is verified and no token for it was ever minted. -/
theorem rebound_address_verified : ¬ ∀ c : Config Bool MailStore EmailRequest,
    (emailSystem plainMail Bool).Reach c → VerifiedProven c.store := by
  intro hall
  have hconsumed := confirming_reaches (G := fun _ _ => True) (fun _ => trivial) fun _ => trivial
  have hget : (mailed.accept 1 ['t'] ['a', '@', 'x']).db.users.get 1 = some student := mailed_get
  have hother : ∀ e : Text,
      ¬ (mailed.accept 1 ['t'] ['a', '@', 'x']).heldByOther 1 e := by
    rintro e ⟨user, row, hrow, hne, _⟩
    rcases Table.get_put_eq_some hrow with ⟨heq, _⟩ | ⟨_, hold⟩
    · exact hne heq
    · rw [Table.get_empty] at hold
      cases hold
  have hload := hconsumed.read_right (.request 1 student ['b', '@', 'x'] ['b', '@', 'x'] hget (by decide))
    (fun _ h => h.elim) trivial
  have hcheck := hload.read_right (.check 1 student ['b', '@', 'x'] (hother _))
    (fun _ h => h.elim) trivial
  have hbound := hcheck.commit_right (.bound 1 student student ['b', '@', 'x'] hget (hother _))
    (fun _ h => h.elim) trivial
  have hverified := hbound.commit_left
    (.verified 1 student { student with emailNormalized := some ['b', '@', 'x'] } (some 0) 50 rfl)
    (fun _ h => h.elim) trivial
  have hproven := hall _ (System.Reach.of_guarded hverified) 1
    ⟨['s'], some ['p'], ['s'], none, some ['b', '@', 'x'], some 50, .student, .active⟩ rfl (by decide)
  cases hproven

/-- An undisturbed confirmation verifies the address that its token was minted for. -/
theorem confirmed_address_proven : VerifiedProven ((mailed.accept 1 ['t'] ['a', '@', 'x']).write 1
    student (writeBack student { student with emailVerifiedAt := some 50 } student)) := by
  have hconsumed := confirming_reaches (G := Undisturbed) (fun _ => trivial) fun _ => trivial
  have hverified := hconsumed.commit_left (.verified 1 student student (some 0) 50 mailed_get)
    (fun _ h => h.elim) rfl
  exact only_proven_verified _ hverified

end Example

end CampusQuest.Identity
