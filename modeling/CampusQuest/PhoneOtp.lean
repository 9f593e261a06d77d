import CampusQuest.LoginAttempts

/-!
One-time codes by SMS outside the login, and the caps of all challenges together. A challenge
is a hash in the key-value store: a verification reads it, compares, and then raises the
attempts or claims the challenge, each by one atomic command. A key that has lapsed in between
comes back as a stub without a code.
-/

namespace CampusQuest.Identity

open AttemptMeter Guards Locking Runs Tables

abbrev OtpId := ℕ

/-- The fields of the hash; a stub lacks those that the request had set. -/
structure OtpRecord where
  codeHash : Option Text
  salt : Option Text
  attempts : ℕ
  expiresAt : Option Instant
  consumedAt : Option Instant
  deriving DecidableEq

/-- `hmacHex` is the keyed digest of a salt and a code. -/
structure OtpPolicy where
  ttl : Duration
  maxVerifyAttempts : ℕ
  max_positive : 1 ≤ maxVerifyAttempts
  hmacHex : Text → Text → Text

inductive OtpError
  | unknownChallenge
  | challengeAlreadyConsumed
  | challengeExpired
  | tooManyAttempts
  deriving DecidableEq, Repr

/-- `compared` is a ghost: the wrong codes that were compared against a challenge. -/
structure OtpStore where
  records : Table OtpId OtpRecord
  issued : OtpId
  compared : OtpId → ℕ

namespace OtpRecord

def stub : OtpRecord := ⟨none, none, 0, none, none⟩

/-- The checks of a verification before it compares: the salt and the digest to compare. -/
def gate (policy : OtpPolicy) (now : Instant) : Option OtpRecord → Except OtpError (Text × Text)
  | none => .error .unknownChallenge
  | some record => do
    ensure (record.consumedAt = none) .challengeAlreadyConsumed
    let expiresAt ← orRefuse .unknownChallenge record.expiresAt
    let codeHash ← orRefuse .unknownChallenge record.codeHash
    let salt ← orRefuse .unknownChallenge record.salt
    ensure (now < expiresAt) .challengeExpired
    ensure (record.attempts < policy.maxVerifyAttempts) .tooManyAttempts
    .ok (salt, codeHash)

end OtpRecord

namespace OtpStore

variable (s : OtpStore)

/-- The record that a write command finds; it makes the key if there is none. -/
def recordOf (id : OtpId) : OtpRecord := (s.records.get id).getD .stub

def countAttempt (id : OtpId) : OtpStore :=
  { s with
    records := s.records.put id { s.recordOf id with attempts := (s.recordOf id).attempts + 1 } }

def claim (id : OtpId) (now : Instant) : OtpStore :=
  { s with records := s.records.put id { s.recordOf id with consumedAt := some now } }

end OtpStore

inductive OtpVerify
  | idle
  | loaded (id : OtpId) (salt codeHash : Text)
  | mismatched (id : OtpId)
  | matched (id : OtpId)
  | claimed (id : OtpId)

inductive OtpEvent
  | abandoned
  | refused (e : OtpError)
  | compared (id : OtpId) (right : Bool)
  | counted (id : OtpId)
  | lost (id : OtpId)
  | claimed (id : OtpId)
  | minted (id : OtpId)
  | requested (id : OtpId)
  | lapsed (id : OtpId)

open OtpVerify

inductive OtpRead (policy : OtpPolicy) : OtpVerify → OtpStore → OtpVerify → Prop
  | load {s : OtpStore} (id : OtpId) (salt codeHash : Text) (now : Instant)
      (hgate : OtpRecord.gate policy now (s.records.get id) = .ok (salt, codeHash)) :
      OtpRead policy idle s (loaded id salt codeHash)

/-- The comparison and the write commands. The request and the lapse of a key stand beside. -/
inductive OtpCommit (policy : OtpPolicy) :
    OtpVerify → OtpStore → OtpEvent → OtpVerify → OtpStore → Prop
  | abandoned {s : OtpStore} (m : OtpVerify) : OtpCommit policy m s .abandoned idle s
  | refused {s : OtpStore} (id : OtpId) (now : Instant) (e : OtpError)
      (hrefuse : OtpRecord.gate policy now (s.records.get id) = .error e) :
      OtpCommit policy idle s (.refused e) idle s
  | mismatch {s : OtpStore} (id : OtpId) (salt codeHash code : Text)
      (hcode : policy.hmacHex salt code ≠ codeHash) :
      OtpCommit policy (loaded id salt codeHash) s (.compared id false) (mismatched id)
        { s with compared := Function.update s.compared id (s.compared id + 1) }
  | match {s : OtpStore} (id : OtpId) (salt codeHash code : Text)
      (hcode : policy.hmacHex salt code = codeHash) :
      OtpCommit policy (loaded id salt codeHash) s (.compared id true) (matched id) s
  | counted {s : OtpStore} (id : OtpId) :
      OtpCommit policy (mismatched id) s (.counted id) idle (s.countAttempt id)
  | lost {s : OtpStore} (id : OtpId) (hclaimed : (s.recordOf id).consumedAt ≠ none) :
      OtpCommit policy (matched id) s (.lost id) idle s
  | claimed {s : OtpStore} (id : OtpId) (now : Instant)
      (hfree : (s.recordOf id).consumedAt = none) :
      OtpCommit policy (matched id) s (.claimed id) (OtpVerify.claimed id) (s.claim id now)
  | minted {s : OtpStore} (id : OtpId) (hcode : (s.recordOf id).codeHash ≠ none) :
      OtpCommit policy (OtpVerify.claimed id) s (.minted id) idle s
  | expired {s : OtpStore} (id : OtpId) (hcode : (s.recordOf id).codeHash = none) :
      OtpCommit policy (OtpVerify.claimed id) s (.refused .challengeExpired) idle
        { s with records := s.records.remove id }
  | requested {s : OtpStore} (salt code : Text) (now : Instant) :
      OtpCommit policy idle s (.requested s.issued) idle
        { s with
          records := s.records.put s.issued
            ⟨some (policy.hmacHex salt code), some salt, 0, some (now + policy.ttl), none⟩
          issued := s.issued + 1 }
  | lapsed {s : OtpStore} (id : OtpId) :
      OtpCommit policy idle s (.lapsed id) idle { s with records := s.records.remove id }

/-- Each command is atomic, and nothing is locked across commands. -/
def otpProtocol (policy : OtpPolicy) : Protocol OtpStore Empty OtpVerify OtpEvent where
  locks _ _ := False
  known _ _ := True
  start m := m = idle
  read := OtpRead policy
  commit := OtpCommit policy

structure OtpStore.Initial (s : OtpStore) : Prop where
  records : s.records = .empty
  compared : ∀ id, s.compared id = 0

def otpSystem (policy : OtpPolicy) (ι : Type*) [DecidableEq ι] :
    System (Config ι OtpStore OtpVerify) (Move ι OtpEvent) :=
  (otpProtocol policy).system ι OtpStore.Initial

/-- The condition on a step: a code is compared while the challenge is there with attempts
below the cap and no wrong code waits to be counted, and a wrong code is counted. -/
def OtpJudgesCurrent (policy : OtpPolicy) {ι : Type*} (c : Config ι OtpStore OtpVerify)
    (m : Move ι OtpEvent) : Prop :=
  match m.2, c.proc m.1 with
  | some (.compared id _), _ =>
    (∃ record, c.store.records.get id = some record ∧ record.codeHash ≠ none ∧
      record.attempts < policy.maxVerifyAttempts) ∧ ∀ j, c.proc j ≠ mismatched id
  | some .abandoned, mismatched _ => False
  | _, _ => True

def OtpVerify.target : OtpVerify → Option OtpId
  | idle => none
  | loaded id _ _ | mismatched id | matched id | claimed id => some id

section Otp

variable {policy : OtpPolicy} {ι : Type*} {c : Config ι OtpStore OtpVerify}

structure OtpInv (policy : OtpPolicy) (c : Config ι OtpStore OtpVerify) : Prop where
  unissued : ∀ id, c.store.issued ≤ id →
    c.store.records.get id = none ∧ c.store.compared id = 0
  targets : ∀ i id, (c.proc i).target = some id → id < c.store.issued
  cap : ∀ id, c.store.compared id ≤ policy.maxVerifyAttempts
  meter : ∀ id record, c.store.records.get id = some record → record.codeHash ≠ none →
    Balanced policy.maxVerifyAttempts (c.store.compared id) record.attempts
      (∃ j, c.proc j = mismatched id)

theorem OtpInv.judged_lt (h : OtpInv policy c) {i : ι} {id : OtpId} {right : Bool}
    (hcurrent : OtpJudgesCurrent policy c (i, some (.compared id right))) :
    c.store.compared id < policy.maxVerifyAttempts := by
  obtain ⟨⟨record, hget, hcode, hbelow⟩, hquiet⟩ := hcurrent
  exact (h.meter id record hget hcode).judged_lt (fun ⟨j, hj⟩ => hquiet j hj) hbelow

theorem gate_ok {now : Instant} {found : Option OtpRecord} {answer : Text × Text}
    (h : OtpRecord.gate policy now found = .ok answer) : found ≠ none := by
  rintro rfl
  cases h

variable [DecidableEq ι]

theorem mismatched_update {i : ι} {m m' : OtpVerify} (hproc : c.proc i = m) {id : OtpId}
    (hkept : m = mismatched id → m' = mismatched id) (h : ∃ j, c.proc j = mismatched id) :
    ∃ j, Function.update c.proc i m' j = mismatched id := by
  obtain ⟨j, hj⟩ := h
  by_cases hji : j = i
  · subst hji
    exact ⟨j, by rw [Function.update_self]; exact hkept (hproc.symm.trans hj)⟩
  · exact ⟨j, by rw [Function.update_of_ne hji]; exact hj⟩

/-- The targets after a move to a request with an old target, or none. -/
theorem OtpInv.targets_update (h : OtpInv policy c) {i : ι} {m' : OtpVerify} {issued : OtpId}
    (hissued : c.store.issued ≤ issued)
    (htarget : ∀ id, m'.target = some id → id < c.store.issued) (j : ι) (id : OtpId)
    (hj : (Function.update c.proc i m' j).target = some id) : id < issued := by
  by_cases hji : j = i
  · subst hji
    rw [Function.update_self] at hj
    exact (htarget id hj).trans_le hissued
  · rw [Function.update_of_ne hji] at hj
    exact (h.targets j id hj).trans_le hissued

theorem OtpInv.read (h : OtpInv policy c) {i : ι} {m' : OtpVerify}
    (hread : OtpRead policy (c.proc i) c.store m') :
    OtpInv policy ⟨c.store, Function.update c.proc i m'⟩ := by
  generalize hproc : c.proc i = m at hread
  cases hread with
  | load id salt codeHash now hgate =>
    refine ⟨h.unissued, h.targets_update le_rfl fun k hk => ?_, h.cap, fun k record hget hcode => ?_⟩
    · obtain rfl := Option.some.inj hk
      by_contra hge
      exact gate_ok hgate (h.unissued id (Nat.le_of_not_lt hge)).1
    · exact (h.meter k record hget hcode).mono le_rfl
        (mismatched_update hproc fun heq => (by cases heq))

/-- A command that writes the record of a challenge. -/
theorem OtpInv.write (h : OtpInv policy c) {i : ι} {m m' : OtpVerify} {id : OtpId}
    {record : OtpRecord} (hproc : c.proc i = m) (htarget : m.target = some id)
    (hm' : ∀ k, m'.target = some k → k = id)
    (hrecord : record.codeHash = (c.store.recordOf id).codeHash)
    (hmismatched : ∀ k, m = mismatched k → k = id ∧
      (c.store.recordOf id).attempts + 1 ≤ record.attempts)
    (hattempts : (c.store.recordOf id).attempts ≤ record.attempts) :
    OtpInv policy ⟨{ c.store with records := c.store.records.put id record },
      Function.update c.proc i m'⟩ := by
  have hid : id < c.store.issued := h.targets i id (hproc ▸ htarget)
  refine ⟨fun k hk => ?_, h.targets_update le_rfl fun k hk => ?_, h.cap, fun k found hget hcode => ?_⟩
  · obtain ⟨hnone, hzero⟩ := h.unissued k hk
    have hne : k ≠ id := by
      rintro rfl
      exact absurd hid (Nat.not_lt_of_le hk)
    exact ⟨(Table.get_put_of_ne _ _ hne).trans hnone, hzero⟩
  · rw [hm' k hk]
    exact hid
  · rcases Table.get_put_eq_some hget with ⟨rfl, rfl⟩ | ⟨hne, hold⟩
    · cases hold : c.store.records.get k with
      | none =>
        have hstub : c.store.recordOf k = .stub := by
          unfold OtpStore.recordOf
          rw [hold]
          rfl
        rw [hrecord, hstub] at hcode
        exact absurd rfl hcode
      | some old =>
        have hfound : c.store.recordOf k = old := by
          unfold OtpStore.recordOf
          rw [hold]
          rfl
        rw [hfound] at hrecord hmismatched hattempts
        have hbalanced := h.meter k old hold (hrecord ▸ hcode)
        by_cases hm : m = mismatched k
        · exact hbalanced.record (hmismatched k hm).2
        · exact hbalanced.mono hattempts (mismatched_update hproc fun heq => absurd heq hm)
    · refine (h.meter k found hold hcode).mono le_rfl (mismatched_update hproc fun heq => ?_)
      exact absurd (hmismatched k heq).1 hne

/-- A move that writes no record and leaves every wrong code counted. -/
theorem OtpInv.move (h : OtpInv policy c) {i : ι} {m m' : OtpVerify} {records : Table OtpId OtpRecord}
    (hproc : c.proc i = m) (hm : ∀ id, m ≠ mismatched id)
    (hm' : ∀ id, m'.target = some id → m.target = some id)
    (hrecords : ∀ id record, records.get id = some record → c.store.records.get id = some record) :
    OtpInv policy ⟨{ c.store with records := records }, Function.update c.proc i m'⟩ := by
  refine ⟨fun k hk => ?_, h.targets_update le_rfl fun k hk => ?_, h.cap, fun k record hget hcode => ?_⟩
  · obtain ⟨hnone, hzero⟩ := h.unissued k hk
    refine ⟨?_, hzero⟩
    by_contra hsome
    obtain ⟨record, hget⟩ := Option.ne_none_iff_exists'.mp hsome
    have hold := hrecords k record hget
    rw [hnone] at hold
    cases hold
  · exact h.targets i k (hproc ▸ hm' k hk)
  · exact (h.meter k record (hrecords k record hget) hcode).mono le_rfl
      (mismatched_update hproc fun heq => absurd heq (hm k))

theorem OtpInv.commit (h : OtpInv policy c) {i : ι} {ev : OtpEvent} {m m' : OtpVerify}
    {s' : OtpStore} (hproc : c.proc i = m) (hcommit : OtpCommit policy m c.store ev m' s')
    (hcurrent : OtpJudgesCurrent policy c (i, some ev)) :
    OtpInv policy ⟨s', Function.update c.proc i m'⟩ := by
  cases hcommit with
  | abandoned =>
    refine h.move hproc (fun id hm => ?_) (fun _ hk => (by cases hk)) fun _ _ hget => hget
    unfold OtpJudgesCurrent at hcurrent
    dsimp only at hcurrent
    rw [hproc, hm] at hcurrent
    exact hcurrent
  | refused =>
    exact h.move hproc (fun _ hm => (by cases hm)) (fun _ hk => (by cases hk)) fun _ _ hget => hget
  | mismatch id salt codeHash code hcode =>
    have hlt := h.judged_lt hcurrent
    obtain ⟨⟨record, hget, hcomplete, hbelow⟩, hquiet⟩ := hcurrent
    have hid : id < c.store.issued := h.targets i id (hproc ▸ rfl)
    refine ⟨fun k hk => ?_, h.targets_update le_rfl fun k hk => ?_, fun k => ?_,
      fun k found hfound hcode => ?_⟩
    · obtain ⟨hnone, hzero⟩ := h.unissued k hk
      have hne : k ≠ id := by
        rintro rfl
        exact absurd hid (Nat.not_lt_of_le hk)
      exact ⟨hnone, (Function.update_of_ne hne ..).trans hzero⟩
    · obtain rfl := Option.some.inj hk
      exact hid
    · by_cases hk : k = id
      · subst hk
        dsimp only
        rw [Function.update_self]
        exact hlt
      · dsimp only
        rw [Function.update_of_ne hk]
        exact h.cap k
    · by_cases hk : k = id
      · subst hk
        obtain rfl : record = found := Option.some.inj (hget.symm.trans hfound)
        dsimp only
        rw [Function.update_self]
        refine (h.meter k record hget hcomplete).judge (fun ⟨j, hj⟩ => hquiet j hj) hbelow ⟨i, ?_⟩
        rw [Function.update_self]
      · dsimp only
        rw [Function.update_of_ne hk]
        exact (h.meter k found hfound hcode).mono le_rfl
          (mismatched_update hproc fun heq => (by cases heq))
  | «match» id salt codeHash code hcode =>
    exact h.move hproc (fun _ hm => (by cases hm)) (fun _ hk => hk) fun _ _ hget => hget
  | counted id =>
    refine h.write hproc rfl (fun _ hk => (by cases hk)) rfl (fun k hm => ?_) (Nat.le_succ _)
    exact ⟨(mismatched.inj hm).symm, le_rfl⟩
  | lost => exact h.move hproc (fun _ hm => (by cases hm)) (fun _ hk => (by cases hk)) fun _ _ hget => hget
  | claimed id now hfree =>
    exact h.write hproc rfl (fun k hk => (Option.some.inj hk).symm) rfl
      (fun _ hm => (by cases hm)) le_rfl
  | minted =>
    exact h.move hproc (fun _ hm => (by cases hm)) (fun _ hk => (by cases hk)) fun _ _ hget => hget
  | expired id hcode =>
    exact h.move hproc (fun _ hm => (by cases hm)) (fun _ hk => (by cases hk))
      fun _ _ hget => Table.get_of_remove hget
  | requested salt code now =>
    refine ⟨fun k hk => ?_, h.targets_update (Nat.le_succ _) fun k hk => (by cases hk), h.cap,
      fun k record hget hcode => ?_⟩
    · have hlt : c.store.issued + 1 ≤ k := hk
      obtain ⟨hnone, hzero⟩ := h.unissued k (Nat.le_of_succ_le hlt)
      have hne : k ≠ c.store.issued := by
        rintro rfl
        exact Nat.not_succ_le_self _ hlt
      exact ⟨(Table.get_put_of_ne _ _ hne).trans hnone, hzero⟩
    · rcases Table.get_put_eq_some hget with ⟨rfl, _⟩ | ⟨_, hold⟩
      · dsimp only
        rw [(h.unissued c.store.issued le_rfl).2]
        exact balanced_zero _ _ _
      · exact (h.meter k record hold hcode).mono le_rfl
          (mismatched_update hproc fun heq => (by cases heq))
  | lapsed id =>
    exact h.move hproc (fun _ hm => (by cases hm)) (fun _ hk => (by cases hk))
      fun _ _ hget => Table.get_of_remove hget

theorem otpInv_reach
    (hc : ((otpSystem policy ι).guarded (OtpJudgesCurrent policy)).Reach c) : OtpInv policy c := by
  induction hc with
  | @init c hinit =>
    have hidle : ∀ i, c.proc i = idle := hinit.2
    have hnone : ∀ id, c.store.records.get id = none := by
      intro id
      rw [hinit.1.records, Table.get_empty]
    refine ⟨fun id _ => ⟨hnone id, hinit.1.compared id⟩, fun i id hi => ?_, fun id => ?_,
      fun id record hget => ?_⟩
    · rw [hidle i] at hi
      cases hi
    · rw [hinit.1.compared id]
      exact Nat.zero_le _
    · rw [hnone id] at hget
      cases hget
  | step _ hstep ih =>
    obtain ⟨hstep, hcurrent⟩ := hstep
    cases hstep with
    | read i m' hread hfree => exact ih.read hread
    | commit i ev m' s' hcommit hfree => exact ih.commit rfl hcommit hcurrent

end Otp

/-- The caps of login codes and one-time codes: in every run whose comparisons are current, at
most the permitted number of wrong codes is compared against a challenge, and no code, a right
one included, is compared after that. -/
theorem challenge_attempts_capped {ι : Type*} [DecidableEq ι] :
    (∀ svc (c : Config ι CodeStore CodeRequest),
      ((codeSystem svc ι).guarded JudgesCurrent).Reach c →
      (∀ id, c.store.compared id ≤ maxVerifyAttempts) ∧
      ∀ i id right c', ((codeSystem svc ι).guarded JudgesCurrent).step c
        (i, some (.compared id right)) c' → c.store.compared id < maxVerifyAttempts) ∧
    (∀ policy (c : Config ι OtpStore OtpVerify),
      ((otpSystem policy ι).guarded (OtpJudgesCurrent policy)).Reach c →
      (∀ id, c.store.compared id ≤ policy.maxVerifyAttempts) ∧
      ∀ i id right c', ((otpSystem policy ι).guarded (OtpJudgesCurrent policy)).step c
        (i, some (.compared id right)) c' → c.store.compared id < policy.maxVerifyAttempts) := by
  constructor
  · intro svc c hc
    exact ⟨(attemptsInv_reach hc).cap, fun i id right c' hstep => compared_before_cap hc hstep⟩
  · intro policy c hc
    exact ⟨(otpInv_reach hc).cap, fun i id right c' hstep => (otpInv_reach hc).judged_lt hstep.2⟩

section Example

open CodeRequest

/-- Codes stand for their own digests, and no text is a phone. -/
def mailCodes : CodeService := ⟨id, id, fun _ => none⟩

def mailbox : Text := ['@']

def teacher : User := ⟨mailbox, some ['p'], ['t'], none, none, none, .teacher, .active⟩

def mailCode : LoginChallenge := ⟨.email, mailbox, ['7'], codeTtl, 0, 0⟩

/-- The code of the teacher, after so many failures and wrong codes. -/
def guessed (failures compared : ℕ) : CodeStore where
  users := Table.empty.put 1 teacher
  challenges := Table.empty.put 0 mailCode
  failures := Function.update (fun _ => 0) 1 failures
  issued := 1
  compared := Function.update (fun _ => 0) 0 compared
  successes _ := 0

theorem findByUsername_guessed (failures compared : ℕ) :
    (guessed failures compared).findByUsername mailbox = some (1, teacher) := by
  refine Table.find_eq (by rfl) rfl fun k r hget _ => ?_
  rcases Table.get_put_eq_some hget with ⟨heq, _⟩ | ⟨_, hold⟩
  · exact heq
  · rw [Table.get_empty] at hold
    cases hold

theorem dispatch_guessed (failures compared : ℕ) :
    (guessed failures compared).dispatch mailCodes mailbox = some (.emailCode mailbox) := by
  unfold CodeStore.dispatch
  have hstrip : strip mailbox = mailbox := by decide
  simp only [hstrip, mailCodes]
  rfl

theorem gate_guessed {failures : ℕ} (compared : ℕ) (h : failures < lockThreshold) :
    (guessed failures compared).gate (.emailCode mailbox) = some (.mail mailbox 1 .teacher) := by
  have hlocked : ¬ (guessed failures compared).IsLocked 1 := by
    unfold CodeStore.IsLocked guessed
    dsimp only
    rw [Function.update_self]
    exact Nat.not_le_of_lt h
  unfold CodeStore.gate
  simp only [findByUsername_guessed, Option.bind_eq_bind, Option.bind_some]
  rw [if_neg]
  · rfl
  · simp [hlocked, teacher]

theorem newest_guessed (failures compared : ℕ) :
    (guessed failures compared).newest (.mail mailbox 1 .teacher) = some (0, mailCode) := by
  unfold CodeStore.newest
  refine Table.head_scan_eq (by rfl) ⟨rfl, rfl⟩ fun k r hget _ => ?_
  rcases Table.get_put_eq_some hget with ⟨heq, _⟩ | ⟨_, hold⟩
  · exact heq
  · rw [Table.get_empty] at hold
    cases hold

/-- A wrong code by e-mail raises the counter of the account and leaves the challenge. -/
theorem guess_reaches {failures compared : ℕ} (hlimit : failures < lockThreshold)
    (h : (codeProtocol mailCodes).Reaches CodeStore.Initial (fun _ _ => True)
      (guessed failures compared) idle idle) :
    (codeProtocol mailCodes).Reaches CodeStore.Initial (fun _ _ => True)
      (guessed (failures + 1) (compared + 1)) idle idle := by
  have hdispatched := h.read_left (.dispatch mailbox _ (dispatch_guessed failures compared))
    (fun _ h => h.elim) trivial
  have hadmitted := hdispatched.read_left (.gate _ _ (gate_guessed compared hlimit))
    (fun _ h => h.elim) trivial
  have hloaded := hadmitted.read_left
    (.load _ 0 mailCode 0 (newest_guessed failures compared) (by decide)) (fun _ h => h.elim) trivial
  have hmismatched := hloaded.commit_left (.mismatch _ 0 mailCode ['8'] (by decide))
    (fun _ h => h.elim) trivial
  have hupdating := hmismatched.read_left (.update _ 0 mailCode rfl) (fun _ _ h => h.elim) trivial
  have hdiscarded := hupdating.commit_left (.discarded _ 0 mailCode rfl) (fun _ h => h.elim) trivial
  have hstore : ({ guessed failures compared with
      compared := Function.update (guessed failures compared).compared 0
        ((guessed failures compared).compared 0 + 1) } : CodeStore).recordFailure (some 1) =
      guessed (failures + 1) (compared + 1) := by
    unfold CodeStore.recordFailure guessed
    simp only [Function.update_self, Function.update_idem]
  have hstore' := hdiscarded
  unfold Caller.user at hstore'
  rwa [hstore] at hstore'

/-- Three wrong codes by e-mail, a login of the account by password that clears its failures,
and three more: six wrong codes have been compared against one challenge. -/
theorem mail_code_guessed_on : ¬ ∀ c : Config Bool CodeStore CodeRequest,
    (codeSystem mailCodes Bool).Reach c → ∀ id, c.store.compared id ≤ maxVerifyAttempts := by
  intro hall
  have hinitial : CodeStore.Initial ⟨Table.empty.put 1 teacher, .empty, Function.update (fun _ => 0) 1 0,
      0, Function.update (fun _ => 0) 0 0, fun _ => 0⟩ := by
    refine ⟨rfl, fun id => ?_, fun _ => rfl⟩
    dsimp only
    rw [Function.update_apply]
    split <;> rfl
  have hstart := Protocol.reaches_start (P := codeProtocol mailCodes) (G := fun _ _ => True)
    hinitial (m := idle) (n := idle) rfl rfl
  have hrequest := hstart.read_left (.request .email mailbox)
    (fun _ h => absurd h (Finset.notMem_empty _)) trivial
  have hissued := hrequest.commit_left (.replaced .email mailbox ['7'] ∅ 0) (fun _ h => h.elim)
    trivial
  have hfirst : (codeProtocol mailCodes).Reaches CodeStore.Initial (fun _ _ => True)
      (guessed 0 0) idle idle := hissued
  have hthree := guess_reaches (by decide) (guess_reaches (by decide)
    (guess_reaches (by decide) hfirst))
  have hreset := hthree.commit_right (.reset 1) (fun _ h => h.elim) trivial
  have hcleared : (guessed 3 3).resetFailures (some 1) = guessed 0 3 := by
    unfold CodeStore.resetFailures guessed
    simp only [Function.update_idem]
  rw [hcleared] at hreset
  have hsix := guess_reaches (by decide) (guess_reaches (by decide)
    (guess_reaches (by decide) hreset))
  have hcap := hall _ (System.Reach.of_guarded hsix) 0
  exact absurd hcap (by decide)

end Example

end CampusQuest.Identity
