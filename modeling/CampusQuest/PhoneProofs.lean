import CampusQuest.PhoneOtp

/-!
Proofs of a phone. A right code consumes its challenge by a sequence of commands on a hash
that may lapse between any two of them, and mints a token in a key of its own; the token is
redeemed by one command that reads and deletes the key.
-/

namespace CampusQuest.Identity

open Guards Locking Runs Tables

inductive OtpPurpose
  | register
  | phoneChange
  | passwordReset
  | phoneBind
  deriving DecidableEq, Repr

structure PhoneRecord extends OtpRecord where
  phone : Option Text
  purpose : Option OtpPurpose
  deriving DecidableEq

structure PhoneProof where
  phone : Text
  purpose : Option OtpPurpose
  expiresAt : Instant
  deriving DecidableEq

structure Issue where
  phone : Text
  purpose : OtpPurpose
  expiresAt : Instant
  deriving DecidableEq

structure PhonePolicy extends OtpPolicy where
  verifiedTokenTtl : Duration

def tokenHashSalt : Text := "verified-token".toList

def PhonePolicy.digest (policy : PhonePolicy) (token : Text) : Text :=
  policy.hmacHex tokenHashSalt token

/-- The keys of challenges and tokens and the clock. Two ghosts never forget: `issued` has what
every challenge was issued for, and `origin` the challenge that every token was minted from. -/
structure ProofStore where
  records : Table OtpId PhoneRecord
  tokens : Table Text PhoneProof
  clock : Instant
  issued : Table OtpId Issue
  origin : Table Text OtpId

namespace ProofStore

variable (s : ProofStore)

/-- The record that a write command finds; it makes the key if there is none. -/
def recordOf (id : OtpId) : PhoneRecord := (s.records.get id).getD ⟨.stub, none, none⟩

def countAttempt (id : OtpId) : ProofStore :=
  { s with
    records := s.records.put id
      { s.recordOf id with attempts := (s.recordOf id).attempts + 1 } }

def claim (id : OtpId) (now : Instant) : ProofStore :=
  { s with records := s.records.put id { s.recordOf id with consumedAt := some now } }

def request (policy : PhonePolicy) (id : OtpId) (salt code : Text) (issue : Issue) : ProofStore :=
  { s with
    records := s.records.put id
      ⟨⟨some (policy.hmacHex salt code), some salt, 0, some issue.expiresAt, none⟩,
        some issue.phone, some issue.purpose⟩
    issued := s.issued.put id issue }

def mint (id : OtpId) (digest : Text) (proof : PhoneProof) : ProofStore :=
  { s with tokens := s.tokens.put digest proof, origin := s.origin.put digest id }

def Complete (id : OtpId) : Prop :=
  ∃ record, s.records.get id = some record ∧ record.codeHash ≠ none

def Unconsumed (id : OtpId) : Prop :=
  ∃ record, s.records.get id = some record ∧ record.codeHash ≠ none ∧ record.consumedAt = none

end ProofStore

/-- A verification with the time at which it started and the record that it read. -/
inductive PhoneVerify
  | idle
  | started (now : Instant)
  | loaded (id : OtpId) (now : Instant) (record : PhoneRecord) (salt codeHash : Text)
  | mismatched (id : OtpId)
  | matched (id : OtpId) (now : Instant) (record : PhoneRecord)
  | claimed (id : OtpId) (now : Instant) (record : PhoneRecord)
  | confirmed (id : OtpId) (now : Instant) (record : PhoneRecord)
  | stale (id : OtpId)

inductive ProofEvent
  | abandoned
  | counted (id : OtpId)
  | claimed (id : OtpId)
  | dropped (id : OtpId)
  | minted (id : OtpId) (digest : Text)
  | redeemed (token : Text) (phone : Text) (purpose : Option OtpPurpose)
  | outdated (token : Text)
  | requested (id : OtpId)
  | lapsed (id : OtpId)
  | tokenLapsed (digest : Text)
  | ticked
  deriving DecidableEq

open PhoneVerify

/-- The commands of `verify_phone_challenge` that only read, and the comparison. The clock is
read first; the last two look once more for the code of a challenge that has been claimed. -/
inductive ProofRead (policy : PhonePolicy) : PhoneVerify → ProofStore → PhoneVerify → Prop
  | start {s : ProofStore} : ProofRead policy idle s (started s.clock)
  | load {s : ProofStore} (id : OtpId) (now : Instant) (record : PhoneRecord)
      (salt codeHash : Text) (hget : s.records.get id = some record)
      (hgate : OtpRecord.gate policy.toOtpPolicy now (some record.toOtpRecord) =
        .ok (salt, codeHash)) :
      ProofRead policy (started now) s (loaded id now record salt codeHash)
  | mismatch {s : ProofStore} (id : OtpId) (now : Instant) (record : PhoneRecord)
      (salt codeHash code : Text) (hcode : policy.hmacHex salt code ≠ codeHash) :
      ProofRead policy (loaded id now record salt codeHash) s (mismatched id)
  | match {s : ProofStore} (id : OtpId) (now : Instant) (record : PhoneRecord)
      (salt codeHash code : Text) (hcode : policy.hmacHex salt code = codeHash) :
      ProofRead policy (loaded id now record salt codeHash) s (matched id now record)
  | confirm {s : ProofStore} (id : OtpId) (now : Instant) (record : PhoneRecord)
      (hcode : (s.recordOf id).codeHash ≠ none) :
      ProofRead policy (claimed id now record) s (confirmed id now record)
  | expired {s : ProofStore} (id : OtpId) (now : Instant) (record : PhoneRecord)
      (hcode : (s.recordOf id).codeHash = none) :
      ProofRead policy (claimed id now record) s (stale id)

/-- The commands that write. A request may end at any point, also when it is refused. The keys
of new challenges and tokens have never been in use. `GETDEL` answers `verify_phone_token`, which
refuses a payload that has expired. The last three stand for the expiry of keys and for time. -/
inductive ProofCommit (policy : PhonePolicy) :
    PhoneVerify → ProofStore → ProofEvent → PhoneVerify → ProofStore → Prop
  | abandoned {s : ProofStore} (m : PhoneVerify) : ProofCommit policy m s .abandoned idle s
  | counted {s : ProofStore} (id : OtpId) :
      ProofCommit policy (mismatched id) s (.counted id) idle (s.countAttempt id)
  | claimed {s : ProofStore} (id : OtpId) (now : Instant) (record : PhoneRecord)
      (hfree : (s.recordOf id).consumedAt = none) :
      ProofCommit policy (matched id now record) s (.claimed id)
        (PhoneVerify.claimed id now record) (s.claim id now)
  | dropped {s : ProofStore} (id : OtpId) :
      ProofCommit policy (stale id) s (.dropped id) idle
        { s with records := s.records.remove id }
  | minted {s : ProofStore} (id : OtpId) (now : Instant) (record : PhoneRecord) (token phone : Text)
      (hphone : record.phone = some phone) (hfresh : s.origin.get (policy.digest token) = none) :
      ProofCommit policy (confirmed id now record) s (.minted id (policy.digest token)) idle
        (s.mint id (policy.digest token) ⟨phone, record.purpose, now + policy.verifiedTokenTtl⟩)
  | redeemed {s : ProofStore} (token : Text) (proof : PhoneProof)
      (hget : s.tokens.get (policy.digest token) = some proof) (hlive : s.clock < proof.expiresAt) :
      ProofCommit policy idle s (.redeemed token proof.phone proof.purpose) idle
        { s with tokens := s.tokens.remove (policy.digest token) }
  | outdated {s : ProofStore} (token : Text) (proof : PhoneProof)
      (hget : s.tokens.get (policy.digest token) = some proof) (hlive : proof.expiresAt ≤ s.clock) :
      ProofCommit policy idle s (.outdated token) idle
        { s with tokens := s.tokens.remove (policy.digest token) }
  | requested {s : ProofStore} (id : OtpId) (salt code phone : Text) (purpose : OtpPurpose)
      (now : Instant) (hnow : now ≤ s.clock) (hfresh : s.issued.get id = none) :
      ProofCommit policy idle s (.requested id) idle
        (s.request policy id salt code ⟨phone, purpose, now + policy.ttl⟩)
  | lapsed {s : ProofStore} (id : OtpId) :
      ProofCommit policy idle s (.lapsed id) idle { s with records := s.records.remove id }
  | tokenLapsed {s : ProofStore} (digest : Text) :
      ProofCommit policy idle s (.tokenLapsed digest) idle
        { s with tokens := s.tokens.remove digest }
  | ticked {s : ProofStore} (clock : Instant) (hclock : s.clock ≤ clock) :
      ProofCommit policy idle s .ticked idle { s with clock := clock }

/-- Each command is atomic, and nothing is locked across commands. -/
def proofProtocol (policy : PhonePolicy) : Protocol ProofStore Empty PhoneVerify ProofEvent where
  locks _ _ := False
  known _ _ := True
  start m := m = idle
  read := ProofRead policy
  commit := ProofCommit policy

structure ProofStore.Initial (s : ProofStore) : Prop where
  records : s.records = .empty
  tokens : s.tokens = .empty
  issued : s.issued = .empty
  origin : s.origin = .empty

def proofSystem (policy : PhonePolicy) (ι : Type*) [DecidableEq ι] :
    System (Config ι ProofStore PhoneVerify) (Move ι ProofEvent) :=
  (proofProtocol policy).system ι ProofStore.Initial

namespace ProofStore

variable (s : ProofStore)

def Recorded (id : OtpId) (record : PhoneRecord) : Prop :=
  ∃ issue, s.issued.get id = some issue ∧ (record.codeHash ≠ none →
    record.phone = some issue.phone ∧ record.purpose = some issue.purpose ∧
      record.expiresAt = some issue.expiresAt)

/-- A verification with this clock and record has read the challenge before it expired. -/
def Judged (id : OtpId) (now : Instant) (record : PhoneRecord) : Prop :=
  ∃ issue, s.issued.get id = some issue ∧ record.phone = some issue.phone ∧
    record.purpose = some issue.purpose ∧ now < issue.expiresAt

/-- A token stands for what the challenge that it was minted from was issued for. -/
def Vouched (digest : Text) (proof : PhoneProof) : Prop :=
  ∃ id issue, s.origin.get digest = some id ∧ s.issued.get id = some issue ∧
    proof.phone = issue.phone ∧ proof.purpose = some issue.purpose

end ProofStore

def PhoneVerify.target : PhoneVerify → Option OtpId
  | idle | started _ => none
  | loaded id _ _ _ _ | mismatched id | matched id _ _ | claimed id _ _ | confirmed id _ _ |
    stale id => some id

def PhoneVerify.subject : PhoneVerify → Option (OtpId × Instant × PhoneRecord)
  | loaded id now record _ _ | matched id now record | claimed id now record |
    confirmed id now record => some (id, now, record)
  | _ => none

/-- A verification that can still mint: it has the claim, and the hash has not lapsed since. -/
def MayMint (s : ProofStore) (id : OtpId) : PhoneVerify → Prop
  | claimed k _ _ => k = id ∧ s.Complete id
  | confirmed k _ _ => k = id
  | _ => False

section Writes

variable {s s' : ProofStore} {id k : OtpId} {record : PhoneRecord}

theorem get_of_recordOf (h : (s.recordOf id).codeHash ≠ none) :
    s.records.get id = some (s.recordOf id) := by
  unfold ProofStore.recordOf at h ⊢
  cases hget : s.records.get id with
  | none =>
    rw [hget] at h
    exact absurd rfl h
  | some record => rfl

theorem complete_of_recordOf (h : (s.recordOf id).codeHash ≠ none) : s.Complete id :=
  ⟨s.recordOf id, get_of_recordOf h, h⟩

/-- A write that leaves the code alone completes no hash. -/
theorem complete_write (hrecords : s'.records = s.records.put id record)
    (hcode : record.codeHash = (s.recordOf id).codeHash) (h : s'.Complete k) : s.Complete k := by
  obtain ⟨found, hget, hcomplete⟩ := h
  rw [hrecords] at hget
  rcases Table.get_put_eq_some hget with ⟨rfl, rfl⟩ | ⟨_, hold⟩
  · rw [hcode] at hcomplete
    exact complete_of_recordOf hcomplete
  · exact ⟨found, hold, hcomplete⟩

theorem unconsumed_write (hrecords : s'.records = s.records.put id record)
    (hcode : record.codeHash = (s.recordOf id).codeHash)
    (hconsumed : record.consumedAt = none → (s.recordOf id).consumedAt = none)
    (h : s'.Unconsumed k) : s.Unconsumed k := by
  obtain ⟨found, hget, hcomplete, hnone⟩ := h
  rw [hrecords] at hget
  rcases Table.get_put_eq_some hget with ⟨rfl, rfl⟩ | ⟨_, hold⟩
  · rw [hcode] at hcomplete
    exact ⟨_, get_of_recordOf hcomplete, hcomplete, hconsumed hnone⟩
  · exact ⟨found, hold, hcomplete, hnone⟩

theorem complete_shrink
    (hrecords : ∀ record, s'.records.get k = some record → s.records.get k = some record)
    (h : s'.Complete k) : s.Complete k := by
  obtain ⟨record, hget, hcomplete⟩ := h
  exact ⟨record, hrecords record hget, hcomplete⟩

theorem unconsumed_shrink
    (hrecords : ∀ record, s'.records.get k = some record → s.records.get k = some record)
    (h : s'.Unconsumed k) : s.Unconsumed k := by
  obtain ⟨record, hget, hcomplete⟩ := h
  exact ⟨record, hrecords record hget, hcomplete⟩

end Writes

section Challenges

variable {policy : PhonePolicy} {ι : Type*} {c : Config ι ProofStore PhoneVerify}

/-- What the keys and the requests say about a challenge is what it was issued for. -/
structure IssueInv (c : Config ι ProofStore PhoneVerify) : Prop where
  records : ∀ id record, c.store.records.get id = some record → c.store.Recorded id record
  tokens : ∀ digest proof, c.store.tokens.get digest = some proof → c.store.Vouched digest proof
  origin : ∀ digest id, c.store.origin.get digest = some id → c.store.issued.get id ≠ none
  targets : ∀ i id, (c.proc i).target = some id → c.store.issued.get id ≠ none
  subjects : ∀ i id now record, (c.proc i).subject = some (id, now, record) →
    c.store.Judged id now record

/-- A hash that is written keeps what the challenge was issued for. -/
theorem IssueInv.recorded_put (h : IssueInv c) {i : ι} {id k : OtpId} {record found : PhoneRecord}
    (htarget : (c.proc i).target = some id) (hphone : record.phone = (c.store.recordOf id).phone)
    (hpurpose : record.purpose = (c.store.recordOf id).purpose)
    (hexpires : record.expiresAt = (c.store.recordOf id).expiresAt)
    (hcode : record.codeHash = (c.store.recordOf id).codeHash)
    (hget : (c.store.records.put id record).get k = some found) : c.store.Recorded k found := by
  rcases Table.get_put_eq_some hget with ⟨rfl, rfl⟩ | ⟨_, hold⟩
  · obtain ⟨issue, hissue⟩ := Option.ne_none_iff_exists'.mp (h.targets i k htarget)
    refine ⟨issue, hissue, fun hcomplete => ?_⟩
    rw [hcode] at hcomplete
    obtain ⟨issue', hissue', hsame⟩ := h.records k _ (get_of_recordOf hcomplete)
    obtain rfl : issue = issue' := Option.some.inj (hissue.symm.trans hissue')
    rw [hphone, hpurpose, hexpires]
    exact hsame hcomplete
  · exact h.records k found hold

theorem gate_judged {now : Instant} {record : OtpRecord} {answer : Text × Text}
    (h : OtpRecord.gate policy.toOtpPolicy now (some record) = .ok answer) :
    record.codeHash ≠ none ∧ ∃ expiresAt, record.expiresAt = some expiresAt ∧ now < expiresAt := by
  unfold OtpRecord.gate at h
  obtain ⟨_, h⟩ := ensure_bind_ok.mp h
  obtain ⟨expiresAt, hexpires, h⟩ := bind_ok.mp h
  obtain ⟨codeHash, hcode, h⟩ := bind_ok.mp h
  obtain ⟨salt, _, h⟩ := bind_ok.mp h
  obtain ⟨hlive, _⟩ := ensure_bind_ok.mp h
  rw [orRefuse_ok] at hexpires hcode
  refine ⟨?_, expiresAt, hexpires, hlive⟩
  rw [hcode]
  exact Option.some_ne_none codeHash

variable [DecidableEq ι]

/-- A step that forgets no challenge and writes what it knows. -/
theorem IssueInv.update (h : IssueInv c) {i : ι} {m' : PhoneVerify} {s' : ProofStore}
    (hissued : ∀ id issue, c.store.issued.get id = some issue → s'.issued.get id = some issue)
    (hrecords : ∀ id record, s'.records.get id = some record → s'.Recorded id record)
    (htokens : ∀ digest proof, s'.tokens.get digest = some proof → s'.Vouched digest proof)
    (horigin : ∀ digest id, s'.origin.get digest = some id → s'.issued.get id ≠ none)
    (htarget : ∀ id, m'.target = some id → c.store.issued.get id ≠ none)
    (hsubject : ∀ id now record, m'.subject = some (id, now, record) →
      c.store.Judged id now record) :
    IssueInv ⟨s', Function.update c.proc i m'⟩ := by
  have hkept {id : OtpId} (h : c.store.issued.get id ≠ none) : s'.issued.get id ≠ none := by
    obtain ⟨issue, hissue⟩ := Option.ne_none_iff_exists'.mp h
    rw [hissued id issue hissue]
    exact Option.some_ne_none issue
  have hjudged {id : OtpId} {now : Instant} {record : PhoneRecord}
      (h : c.store.Judged id now record) : s'.Judged id now record := by
    obtain ⟨issue, hissue, hrecord⟩ := h
    exact ⟨issue, hissued id issue hissue, hrecord⟩
  refine ⟨hrecords, htokens, horigin, ?_, ?_⟩
  · refine (Function.forall_update_iff c.proc fun _ (m : PhoneVerify) =>
      ∀ id, m.target = some id → s'.issued.get id ≠ none).mpr ⟨?_, ?_⟩
    · exact fun id hid => hkept (htarget id hid)
    · exact fun j _ id hid => hkept (h.targets j id hid)
  · refine (Function.forall_update_iff c.proc fun _ (m : PhoneVerify) =>
      ∀ id now record, m.subject = some (id, now, record) → s'.Judged id now record).mpr ⟨?_, ?_⟩
    · exact fun id now record hsub => hjudged (hsubject id now record hsub)
    · exact fun j _ id now record hsub => hjudged (h.subjects j id now record hsub)

/-- A step that changes neither the challenges nor the tokens' origins. -/
theorem IssueInv.keep (h : IssueInv c) {i : ι} {m' : PhoneVerify} {s' : ProofStore}
    (hissued : s'.issued = c.store.issued) (horigin : s'.origin = c.store.origin)
    (hrecords : ∀ id record, s'.records.get id = some record → c.store.Recorded id record)
    (htokens : ∀ digest proof, s'.tokens.get digest = some proof →
      c.store.tokens.get digest = some proof)
    (htarget : ∀ id, m'.target = some id → c.store.issued.get id ≠ none)
    (hsubject : ∀ id now record, m'.subject = some (id, now, record) →
      c.store.Judged id now record) :
    IssueInv ⟨s', Function.update c.proc i m'⟩ := by
  refine h.update (fun id issue hissue => by rwa [hissued]) (fun id record hget => ?_)
    (fun digest proof hget => ?_) (fun digest id hget => ?_) htarget hsubject
  · unfold ProofStore.Recorded
    rw [hissued]
    exact hrecords id record hget
  · unfold ProofStore.Vouched
    rw [horigin, hissued]
    exact h.tokens digest proof (htokens digest proof hget)
  · rw [hissued]
    rw [horigin] at hget
    exact h.origin digest id hget

/-- A verification that goes on, or ends. -/
theorem IssueInv.move (h : IssueInv c) {i : ι} {m' : PhoneVerify}
    (htarget : ∀ id, m'.target = some id → (c.proc i).target = some id)
    (hsubject : ∀ t, m'.subject = some t → (c.proc i).subject = some t) :
    IssueInv ⟨c.store, Function.update c.proc i m'⟩ :=
  h.keep rfl rfl h.records (fun _ _ hget => hget) (fun id hid => h.targets i id (htarget id hid))
    fun id now record hsub => h.subjects i id now record (hsubject _ hsub)

theorem IssueInv.read (h : IssueInv c) {i : ι} {m m' : PhoneVerify} (hproc : c.proc i = m)
    (hread : ProofRead policy m c.store m') :
    IssueInv ⟨c.store, Function.update c.proc i m'⟩ := by
  cases hread with
  | start => exact h.move (fun _ hid => (by cases hid)) fun _ hsub => (by cases hsub)
  | load id now record salt codeHash hget hgate =>
    obtain ⟨hcomplete, expiresAt, hexpires, hlive⟩ := gate_judged hgate
    obtain ⟨issue, hissue, hsame⟩ := h.records id record hget
    obtain ⟨hphone, hpurpose, hexpiry⟩ := hsame hcomplete
    obtain rfl := Option.some.inj (hexpires.symm.trans hexpiry)
    refine h.keep rfl rfl h.records (fun _ _ hget => hget) (fun k hk => ?_) fun k at' found hsub => ?_
    · obtain rfl := Option.some.inj hk
      rw [hissue]
      exact Option.some_ne_none issue
    · obtain ⟨rfl, rfl, rfl⟩ := Prod.mk.inj (Option.some.inj hsub)
      exact ⟨issue, hissue, hphone, hpurpose, hlive⟩
  | mismatch => exact h.move (fun _ hid => hproc ▸ hid) fun _ hsub => (by cases hsub)
  | «match» => exact h.move (fun _ hid => hproc ▸ hid) fun _ hsub => hproc ▸ hsub
  | confirm => exact h.move (fun _ hid => hproc ▸ hid) fun _ hsub => hproc ▸ hsub
  | expired => exact h.move (fun _ hid => hproc ▸ hid) fun _ hsub => (by cases hsub)

theorem IssueInv.commit (h : IssueInv c) {i : ι} {ev : ProofEvent} {m m' : PhoneVerify}
    {s' : ProofStore} (hproc : c.proc i = m) (hcommit : ProofCommit policy m c.store ev m' s') :
    IssueInv ⟨s', Function.update c.proc i m'⟩ := by
  have hsubject {id : OtpId} {now : Instant} {record : PhoneRecord}
      (hsub : m.subject = some (id, now, record)) : c.store.Judged id now record :=
    h.subjects i id now record (hproc ▸ hsub)
  have htarget {id : OtpId} (hid : m.target = some id) : (c.proc i).target = some id :=
    hproc ▸ hid
  cases hcommit with
  | abandoned => exact h.move (fun _ hid => (by cases hid)) fun _ hsub => (by cases hsub)
  | counted id =>
    exact h.keep rfl rfl (fun k found => h.recorded_put (htarget rfl) rfl rfl rfl rfl)
      (fun _ _ hget => hget) (fun _ hid => (by cases hid)) fun _ _ _ hsub => (by cases hsub)
  | claimed id now record hfree =>
    exact h.keep rfl rfl (fun k found => h.recorded_put (htarget rfl) rfl rfl rfl rfl)
      (fun _ _ hget => hget) (fun k hk => h.targets i k (htarget hk))
      fun k at' found hsub => hsubject hsub
  | dropped id =>
    exact h.keep rfl rfl (fun k record hget => h.records k record (Table.get_of_remove hget))
      (fun _ _ hget => hget) (fun _ hid => (by cases hid)) fun _ _ _ hsub => (by cases hsub)
  | minted id now record token phone hphone hfresh =>
    obtain ⟨issue, hissue, hrecord, hpurpose, _⟩ := hsubject rfl
    refine h.update (fun _ _ hissue => hissue) h.records (fun digest proof hget => ?_)
      (fun digest k hget => ?_) (fun _ hid => (by cases hid)) fun _ _ _ hsub => (by cases hsub)
    · rcases Table.get_put_eq_some hget with ⟨rfl, rfl⟩ | ⟨hne, hold⟩
      · refine ⟨id, issue, Table.get_put_self _ _ _, hissue, ?_, hpurpose⟩
        exact Option.some.inj (hphone.symm.trans hrecord)
      · obtain ⟨k, other, horigin, hother⟩ := h.tokens digest proof hold
        exact ⟨k, other, (Table.get_put_of_ne _ _ hne).trans horigin, hother⟩
    · rcases Table.get_put_eq_some hget with ⟨_, rfl⟩ | ⟨_, hold⟩
      · exact Option.ne_none_iff_exists'.mpr ⟨issue, hissue⟩
      · exact h.origin digest k hold
  | redeemed token proof hget hlive =>
    exact h.keep rfl rfl h.records (fun _ _ hget => Table.get_of_remove hget)
      (fun _ hid => (by cases hid)) fun _ _ _ hsub => (by cases hsub)
  | outdated token proof hget hlive =>
    exact h.keep rfl rfl h.records (fun _ _ hget => Table.get_of_remove hget)
      (fun _ hid => (by cases hid)) fun _ _ _ hsub => (by cases hsub)
  | requested id salt code phone purpose now hnow hfresh =>
    have hkept (k : OtpId) (issue : Issue) (hissue : c.store.issued.get k = some issue) :
        (c.store.issued.put id ⟨phone, purpose, now + policy.ttl⟩).get k = some issue := by
      refine (Table.get_put_of_ne _ _ ?_).trans hissue
      rintro rfl
      rw [hfresh] at hissue
      cases hissue
    refine h.update hkept (fun k record hget => ?_) (fun digest proof hget => ?_)
      (fun digest k hget => ?_) (fun _ hid => (by cases hid)) fun _ _ _ hsub => (by cases hsub)
    · rcases Table.get_put_eq_some hget with ⟨rfl, rfl⟩ | ⟨_, hold⟩
      · exact ⟨_, Table.get_put_self _ _ _, fun _ => ⟨rfl, rfl, rfl⟩⟩
      · obtain ⟨issue, hissue, hsame⟩ := h.records k record hold
        exact ⟨issue, hkept k issue hissue, hsame⟩
    · obtain ⟨k, issue, horigin, hissue, hsame⟩ := h.tokens digest proof hget
      exact ⟨k, issue, horigin, hkept k issue hissue, hsame⟩
    · obtain ⟨issue, hissue⟩ := Option.ne_none_iff_exists'.mp (h.origin digest k hget)
      exact Option.ne_none_iff_exists'.mpr ⟨issue, hkept k issue hissue⟩
  | lapsed id =>
    exact h.keep rfl rfl (fun k record hget => h.records k record (Table.get_of_remove hget))
      (fun _ _ hget => hget) (fun _ hid => (by cases hid)) fun _ _ _ hsub => (by cases hsub)
  | tokenLapsed digest =>
    exact h.keep rfl rfl h.records (fun _ _ hget => Table.get_of_remove hget)
      (fun _ hid => (by cases hid)) fun _ _ _ hsub => (by cases hsub)
  | ticked clock hclock =>
    exact h.keep rfl rfl h.records (fun _ _ hget => hget) (fun _ hid => (by cases hid))
      fun _ _ _ hsub => (by cases hsub)

theorem issueInv_reach (hc : (proofSystem policy ι).Reach c) : IssueInv c := by
  induction hc with
  | @init c hinit =>
    obtain ⟨hempty, hidle⟩ := hinit
    have hidle : ∀ i, c.proc i = idle := hidle
    refine ⟨fun id record hget => ?_, fun digest proof hget => ?_, fun digest id hget => ?_,
      fun i id hid => ?_, fun i id now record hsub => ?_⟩
    · rw [hempty.records, Table.get_empty] at hget
      cases hget
    · rw [hempty.tokens, Table.get_empty] at hget
      cases hget
    · rw [hempty.origin, Table.get_empty] at hget
      cases hget
    · rw [hidle i] at hid
      cases hid
    · rw [hidle i] at hsub
      cases hsub
  | step _ hstep ih =>
    cases hstep with
    | read i m' hread hfree => exact ih.read rfl hread
    | commit i ev m' s' hcommit hfree => exact ih.commit rfl hcommit

/-- One verification at most can still mint from a challenge; none can once a token has been
minted from it, nor before the challenge is consumed. -/
structure MintInv (c : Config ι ProofStore PhoneVerify) : Prop where
  alone : ∀ id i j, MayMint c.store id (c.proc i) → MayMint c.store id (c.proc j) → i = j
  spent : ∀ digest id, c.store.origin.get digest = some id →
    ∀ i, ¬ MayMint c.store id (c.proc i)
  unconsumed : ∀ id, c.store.Unconsumed id →
    (∀ digest, c.store.origin.get digest ≠ some id) ∧ ∀ i, ¬ MayMint c.store id (c.proc i)

theorem mayMint_mono {s s' : ProofStore} {id : OtpId} {m : PhoneVerify}
    (hcomplete : s'.Complete id → s.Complete id) (h : MayMint s' id m) : MayMint s id m := by
  cases m with
  | claimed k now record => exact ⟨h.1, hcomplete h.2⟩
  | confirmed k now record => exact h
  | _ => exact h.elim

/-- After a step of one request, who may mint could do so before. -/
theorem mayMint_update {i j : ι} {m' : PhoneVerify} {s' : ProofStore} {id : OtpId}
    (hcomplete : s'.Complete id → c.store.Complete id)
    (hself : MayMint s' id m' → MayMint c.store id (c.proc i))
    (h : MayMint s' id (Function.update c.proc i m' j)) : MayMint c.store id (c.proc j) := by
  by_cases hji : j = i
  · subst hji
    rw [Function.update_self] at h
    exact hself h
  · rw [Function.update_of_ne hji] at h
    exact mayMint_mono hcomplete h

/-- A step that completes no hash, frees no challenge and mints nothing. -/
theorem MintInv.quiet (h : MintInv c) {i : ι} {m' : PhoneVerify} {s' : ProofStore}
    (horigin : s'.origin = c.store.origin)
    (hcomplete : ∀ id, s'.Complete id → c.store.Complete id)
    (hunconsumed : ∀ id, s'.Unconsumed id → c.store.Unconsumed id)
    (hself : ∀ id, MayMint s' id m' → MayMint c.store id (c.proc i)) :
    MintInv ⟨s', Function.update c.proc i m'⟩ := by
  have hbefore {id : OtpId} {j : ι} (hj : MayMint s' id (Function.update c.proc i m' j)) :
      MayMint c.store id (c.proc j) := mayMint_update (hcomplete id) (hself id) hj
  constructor
  · exact fun id j j' hj hj' => h.alone id j j' (hbefore hj) (hbefore hj')
  · intro digest id hget j hj
    rw [horigin] at hget
    exact h.spent digest id hget j (hbefore hj)
  · intro id hfree
    rw [horigin]
    obtain ⟨hunspent, hnone⟩ := h.unconsumed id (hunconsumed id hfree)
    exact ⟨hunspent, fun j hj => hnone j (hbefore hj)⟩

theorem MintInv.read (h : MintInv c) {i : ι} {m m' : PhoneVerify} (hproc : c.proc i = m)
    (hread : ProofRead policy m c.store m') :
    MintInv ⟨c.store, Function.update c.proc i m'⟩ := by
  refine h.quiet rfl (fun _ hid => hid) (fun _ hid => hid) fun id hself => ?_
  rw [hproc]
  cases hread with
  | confirm k now record hcode =>
    have hk : k = id := hself
    exact ⟨hk, hk ▸ complete_of_recordOf hcode⟩
  | _ => exact hself.elim

/-- A request that ends can mint no more. -/
theorem MintInv.ends (h : MintInv c) {i : ι} {s' : ProofStore}
    (horigin : s'.origin = c.store.origin)
    (hrecords : ∀ k record, s'.records.get k = some record →
      c.store.records.get k = some record) :
    MintInv ⟨s', Function.update c.proc i idle⟩ :=
  h.quiet horigin (fun k => complete_shrink (hrecords k)) (fun k => unconsumed_shrink (hrecords k))
    fun _ hself => hself.elim

/-- `HSETNX` on a hash that is complete: the one request goes on. -/
theorem MintInv.claim (h : MintInv c) {i : ι} {id : OtpId} {now : Instant} {record : PhoneRecord}
    (hfree : (c.store.recordOf id).consumedAt = none) :
    MintInv ⟨c.store.claim id now, Function.update c.proc i (claimed id now record)⟩ := by
  have hcomplete (k : OtpId) : (c.store.claim id now).Complete k → c.store.Complete k :=
    complete_write rfl rfl
  have hunconsumed (k : OtpId) : (c.store.claim id now).Unconsumed k → c.store.Unconsumed k :=
    unconsumed_write rfl rfl fun hnone => (by cases hnone)
  by_cases hcode : (c.store.recordOf id).codeHash = none
  · refine h.quiet rfl hcomplete hunconsumed fun k hself => ?_
    obtain ⟨rfl, found, hget, hfound⟩ := hself
    rcases Table.get_put_eq_some hget with ⟨_, rfl⟩ | ⟨hne, _⟩
    · exact absurd hcode hfound
    · exact absurd rfl hne
  · have hopen : c.store.Unconsumed id := ⟨_, get_of_recordOf hcode, hcode, hfree⟩
    obtain ⟨hunspent, hnone⟩ := h.unconsumed id hopen
    have hother {k : OtpId} {j : ι}
        (hj : MayMint (c.store.claim id now) k (Function.update c.proc i (claimed id now record) j)) :
        (j = i ∧ k = id) ∨ MayMint c.store k (c.proc j) := by
      by_cases hji : j = i
      · rw [hji, Function.update_self] at hj
        exact Or.inl ⟨hji, hj.1.symm⟩
      · rw [Function.update_of_ne hji] at hj
        exact Or.inr (mayMint_mono (hcomplete k) hj)
    constructor
    · intro k j j' hj hj'
      rcases hother hj with ⟨rfl, rfl⟩ | hold
      · rcases hother hj' with ⟨rfl, _⟩ | hold'
        · rfl
        · exact absurd hold' (hnone j')
      · rcases hother hj' with ⟨_, rfl⟩ | hold'
        · exact absurd hold (hnone j)
        · exact h.alone k j j' hold hold'
    · intro digest k hget j hj
      rcases hother hj with ⟨_, rfl⟩ | hold
      · exact hunspent digest hget
      · exact h.spent digest k hget j hold
    · intro k hk
      obtain ⟨hclean, hidle⟩ := h.unconsumed k (hunconsumed k hk)
      refine ⟨hclean, fun j hj => ?_⟩
      rcases hother hj with ⟨_, rfl⟩ | hold
      · obtain ⟨found, hget, _, hfound⟩ := hk
        rw [show (c.store.claim k now).records.get k = _ from Table.get_put_self _ _ _] at hget
        rw [← Option.some.inj hget] at hfound
        cases hfound
      · exact hidle j hold

theorem MintInv.commit (h : MintInv c) (hissue : IssueInv c) {i : ι} {ev : ProofEvent}
    {m m' : PhoneVerify} {s' : ProofStore} (hproc : c.proc i = m)
    (hcommit : ProofCommit policy m c.store ev m' s') :
    MintInv ⟨s', Function.update c.proc i m'⟩ := by
  cases hcommit with
  | abandoned => exact h.ends rfl fun _ _ hget => hget
  | counted id =>
    exact h.quiet rfl (fun _ => complete_write rfl rfl) (fun _ => unconsumed_write rfl rfl fun hnone => hnone)
      fun _ hself => hself.elim
  | claimed id now record hfree => exact h.claim hfree
  | dropped id => exact h.ends rfl fun _ _ hget => Table.get_of_remove hget
  | minted id now record token phone hphone hfresh =>
    have hmine : MayMint c.store id (c.proc i) := by
      rw [hproc]
      exact rfl
    have hothers {k : OtpId} {j : ι}
        (hj : MayMint c.store k (Function.update c.proc i idle j)) :
        j ≠ i ∧ MayMint c.store k (c.proc j) := by
      by_cases hji : j = i
      · rw [hji, Function.update_self] at hj
        exact hj.elim
      · rw [Function.update_of_ne hji] at hj
        exact ⟨hji, hj⟩
    constructor
    · intro k j j' hj hj'
      exact h.alone k j j' (hothers hj).2 (hothers hj').2
    · intro digest k hget j hj
      obtain ⟨hji, hmay⟩ := hothers hj
      rcases Table.get_put_eq_some hget with ⟨_, rfl⟩ | ⟨_, hold⟩
      · exact hji (h.alone k j i hmay hmine)
      · exact h.spent digest k hold j hmay
    · intro k hk
      obtain ⟨hclean, hidle⟩ := h.unconsumed k hk
      refine ⟨fun digest hget => ?_, fun j hj => hidle j (hothers hj).2⟩
      rcases Table.get_put_eq_some hget with ⟨_, rfl⟩ | ⟨_, hold⟩
      · exact hidle i hmine
      · exact hclean digest hold
  | redeemed => exact h.ends rfl fun _ _ hget => hget
  | outdated => exact h.ends rfl fun _ _ hget => hget
  | requested id salt code phone purpose now hnow hfresh =>
    have hcomplete {k : OtpId} (hne : k ≠ id)
        (hk : (c.store.request policy id salt code ⟨phone, purpose, now + policy.ttl⟩).Complete k) :
        c.store.Complete k := by
      obtain ⟨found, hget, hfound⟩ := hk
      exact ⟨found, (Table.get_put_of_ne _ _ hne).symm.trans hget, hfound⟩
    -- The challenge is new, so no request works on it and no token comes from it.
    have hold {k : OtpId} {j : ι} (hj : MayMint (c.store.request policy id salt code
        ⟨phone, purpose, now + policy.ttl⟩) k (Function.update c.proc i idle j)) :
        k ≠ id ∧ MayMint c.store k (c.proc j) := by
      by_cases hji : j = i
      · rw [hji, Function.update_self] at hj
        exact hj.elim
      · rw [Function.update_of_ne hji] at hj
        have htarget : (c.proc j).target = some k := by
          generalize c.proc j = o at hj
          cases o with
          | claimed k' now record => exact congrArg some hj.1
          | confirmed k' now record => exact congrArg some hj
          | _ => exact hj.elim
        have hne : k ≠ id := by
          rintro rfl
          exact hissue.targets j k htarget hfresh
        exact ⟨hne, mayMint_mono (hcomplete hne) hj⟩
    constructor
    · exact fun k j j' hj hj' => h.alone k j j' (hold hj).2 (hold hj').2
    · exact fun digest k hget j hj => h.spent digest k hget j (hold hj).2
    · intro k hk
      by_cases hne : k = id
      · subst hne
        exact ⟨fun digest hget => hissue.origin digest k hget hfresh,
          fun j hj => absurd rfl (hold hj).1⟩
      · obtain ⟨found, hget, hfound⟩ := hk
        obtain ⟨hclean, hidle⟩ :=
          h.unconsumed k ⟨found, (Table.get_put_of_ne _ _ hne).symm.trans hget, hfound⟩
        exact ⟨hclean, fun j hj => hidle j (hold hj).2⟩
  | lapsed id => exact h.ends rfl fun _ _ hget => Table.get_of_remove hget
  | tokenLapsed => exact h.ends rfl fun _ _ hget => hget
  | ticked => exact h.ends rfl fun _ _ hget => hget

theorem mintInv_reach (hc : (proofSystem policy ι).Reach c) : MintInv c := by
  induction hc with
  | @init c hinit =>
    obtain ⟨hempty, hidle⟩ := hinit
    have hidle : ∀ i, c.proc i = idle := hidle
    refine ⟨fun id i j hi => ?_, fun digest id hget => ?_, fun id ⟨record, hget, _⟩ => ?_⟩
    · rw [hidle i] at hi
      exact hi.elim
    · rw [hempty.origin, Table.get_empty] at hget
      cases hget
    · rw [hempty.records, Table.get_empty] at hget
      cases hget
  | step hc hstep ih =>
    have hissue := issueInv_reach hc
    cases hstep with
    | read i m' hread hfree => exact ih.read rfl hread
    | commit i ev m' s' hcommit hfree => exact ih.commit hissue rfl hcommit

end Challenges

/-- The clock as a verification that may still mint has read it. -/
def PhoneVerify.startedAt : PhoneVerify → Option Instant
  | started now | loaded _ now _ _ _ | matched _ now _ | claimed _ now _ | confirmed _ now _ =>
    some now
  | _ => none

section Runs

variable {policy : PhonePolicy} {ι : Type*} [DecidableEq ι]
  {c c' : Config ι ProofStore PhoneVerify}

/-- The hash of the challenge has lapsed or is a stub, and no verification has found it whole
after its claim. -/
structure HashGone (id : OtpId) (c : Config ι ProofStore PhoneVerify) : Prop where
  issued : c.store.issued.get id ≠ none
  incomplete : ¬ c.store.Complete id
  unconfirmed : ∀ i now record, c.proc i ≠ confirmed id now record

/-- The challenge has expired by the clock, and no verification goes on with an earlier one. -/
def Outlived (issue : Issue) (c : Config ι ProofStore PhoneVerify) : Prop :=
  issue.expiresAt ≤ c.store.clock ∧
    ∀ i now, (c.proc i).startedAt = some now → issue.expiresAt ≤ now

def Mints (id : OtpId)
    (e : Config ι ProofStore PhoneVerify × Move ι ProofEvent × Config ι ProofStore PhoneVerify) :
    Prop :=
  ∃ digest, e.2.1.2 = some (.minted id digest)

def Redeems (token : Text)
    (e : Config ι ProofStore PhoneVerify × Move ι ProofEvent × Config ι ProofStore PhoneVerify) :
    Prop :=
  ∃ phone purpose, e.2.1.2 = some (.redeemed token phone purpose)

/-- What a step can do to the hash of a challenge, to the origins of tokens and to the clock. -/
theorem commit_monotone {m m' : PhoneVerify} {s s' : ProofStore} {ev : ProofEvent}
    (hcommit : ProofCommit policy m s ev m' s') :
    (∀ id issue, s.issued.get id = some issue →
      s'.issued.get id = some issue ∧ (s'.Complete id → s.Complete id)) ∧
    (∀ digest id, s.origin.get digest = some id → s'.origin.get digest = some id ∧
      (s.tokens.get digest = none → s'.tokens.get digest = none)) ∧
    s.clock ≤ s'.clock := by
  have hremoved {digest key : Text} (hnone : s.tokens.get digest = none) :
      (s.tokens.remove key).get digest = none := by
    rw [Table.get_remove]
    split
    · rfl
    · exact hnone
  cases hcommit with
  | abandoned =>
    exact ⟨fun _ _ h => ⟨h, fun h => h⟩, fun _ _ h => ⟨h, fun h => h⟩, le_rfl⟩
  | counted id =>
    exact ⟨fun _ _ h => ⟨h, complete_write rfl rfl⟩, fun _ _ h => ⟨h, fun h => h⟩, le_rfl⟩
  | claimed id now record hfree =>
    exact ⟨fun _ _ h => ⟨h, complete_write rfl rfl⟩, fun _ _ h => ⟨h, fun h => h⟩, le_rfl⟩
  | dropped id =>
    exact ⟨fun _ _ h => ⟨h, complete_shrink fun _ hget => Table.get_of_remove hget⟩,
      fun _ _ h => ⟨h, fun h => h⟩, le_rfl⟩
  | minted id now record token phone hphone hfresh =>
    refine ⟨fun _ _ h => ⟨h, fun h => h⟩, fun digest k horigin => ?_, le_rfl⟩
    have hne : digest ≠ policy.digest token := by
      rintro rfl
      rw [hfresh] at horigin
      cases horigin
    exact ⟨(Table.get_put_of_ne _ _ hne).trans horigin,
      fun hnone => (Table.get_put_of_ne _ _ hne).trans hnone⟩
  | redeemed =>
    exact ⟨fun _ _ h => ⟨h, fun h => h⟩, fun _ _ h => ⟨h, hremoved⟩, le_rfl⟩
  | outdated =>
    exact ⟨fun _ _ h => ⟨h, fun h => h⟩, fun _ _ h => ⟨h, hremoved⟩, le_rfl⟩
  | requested id salt code phone purpose now hnow hfresh =>
    refine ⟨fun k issue hissue => ?_, fun _ _ h => ⟨h, fun h => h⟩, le_rfl⟩
    have hne : k ≠ id := by
      rintro rfl
      rw [hfresh] at hissue
      cases hissue
    refine ⟨(Table.get_put_of_ne _ _ hne).trans hissue, fun hcomplete => ?_⟩
    obtain ⟨found, hget, hfound⟩ := hcomplete
    exact ⟨found, (Table.get_put_of_ne _ _ hne).symm.trans hget, hfound⟩
  | lapsed id =>
    exact ⟨fun _ _ h => ⟨h, complete_shrink fun _ hget => Table.get_of_remove hget⟩,
      fun _ _ h => ⟨h, fun h => h⟩, le_rfl⟩
  | tokenLapsed =>
    exact ⟨fun _ _ h => ⟨h, fun h => h⟩, fun _ _ h => ⟨h, hremoved⟩, le_rfl⟩
  | ticked clock hclock =>
    exact ⟨fun _ _ h => ⟨h, fun h => h⟩, fun _ _ h => ⟨h, fun h => h⟩, hclock⟩

theorem HashGone.step {id : OtpId} {a : Move ι ProofEvent} (h : HashGone id c)
    (hstep : (proofSystem policy ι).step c a c') : HashGone id c' := by
  obtain ⟨issue, hissue⟩ := Option.ne_none_iff_exists'.mp h.issued
  cases hstep with
  | read i m' hread hfree =>
    have hread : ProofRead policy (c.proc i) c.store m' := hread
    refine ⟨h.issued, h.incomplete, (Function.forall_update_iff c.proc fun _ (m : PhoneVerify) =>
      ∀ now record, m ≠ confirmed id now record).mpr ⟨?_, fun j _ => h.unconfirmed j⟩⟩
    rintro now record rfl
    generalize c.proc i = m at hread
    cases hread with
    | confirm _ _ _ hcode => exact h.incomplete (complete_of_recordOf hcode)
  | commit i ev m' s' hcommit hfree =>
    have hcommit : ProofCommit policy (c.proc i) c.store ev m' s' := hcommit
    obtain ⟨hchallenges, _, _⟩ := commit_monotone hcommit
    obtain ⟨hkept, hcomplete⟩ := hchallenges id issue hissue
    refine ⟨Option.ne_none_iff_exists'.mpr ⟨issue, hkept⟩, fun hc => h.incomplete (hcomplete hc),
      (Function.forall_update_iff c.proc fun _ (m : PhoneVerify) =>
        ∀ now record, m ≠ confirmed id now record).mpr ⟨?_, fun j _ => h.unconfirmed j⟩⟩
    rintro now record rfl
    generalize c.proc i = m at hcommit
    cases hcommit

theorem Outlived.step {issue : Issue} {a : Move ι ProofEvent} (h : Outlived issue c)
    (hstep : (proofSystem policy ι).step c a c') : Outlived issue c' := by
  obtain ⟨hexpired, hstarted⟩ := h
  cases hstep with
  | read i m' hread hfree =>
    have hread : ProofRead policy (c.proc i) c.store m' := hread
    refine ⟨hexpired, (Function.forall_update_iff c.proc fun _ (m : PhoneVerify) =>
      ∀ now, m.startedAt = some now → issue.expiresAt ≤ now).mpr ⟨?_, fun j _ => hstarted j⟩⟩
    intro now hnow
    generalize hproc : c.proc i = m at hread
    cases hread with
    | start =>
      obtain rfl := Option.some.inj hnow
      exact hexpired
    | load => exact hstarted i now (hproc ▸ hnow)
    | «match» => exact hstarted i now (hproc ▸ hnow)
    | confirm => exact hstarted i now (hproc ▸ hnow)
    | mismatch => cases hnow
    | expired => cases hnow
  | commit i ev m' s' hcommit hfree =>
    have hcommit : ProofCommit policy (c.proc i) c.store ev m' s' := hcommit
    refine ⟨hexpired.trans (commit_monotone hcommit).2.2,
      (Function.forall_update_iff c.proc fun _ (m : PhoneVerify) =>
        ∀ now, m.startedAt = some now → issue.expiresAt ≤ now).mpr ⟨?_, fun j _ => hstarted j⟩⟩
    intro now hnow
    generalize hproc : c.proc i = m at hcommit
    cases hcommit with
    | claimed => exact hstarted i now (hproc ▸ hnow)
    | _ => cases hnow

/-- Who mints has found the hash whole after its claim, and it is the last token from there. -/
theorem minted_step {id : OtpId} {a : Move ι ProofEvent}
    (hstep : (proofSystem policy ι).step c a c') (hmints : Mints id (c, a, c')) :
    (∃ now record, c.proc a.1 = confirmed id now record) ∧
      ∃ digest, c'.store.origin.get digest = some id := by
  obtain ⟨digest, hlabel⟩ := hmints
  cases hstep with
  | read => cases hlabel
  | commit i ev m' s' hcommit hfree =>
    have hcommit : ProofCommit policy (c.proc i) c.store ev m' s' := hcommit
    obtain rfl := Option.some.inj hlabel
    generalize c.proc i = m at hcommit
    cases hcommit with
    | minted _ now record token phone =>
      refine ⟨⟨now, record, rfl⟩, policy.digest token, ?_⟩
      exact Table.get_put_self _ _ _

/-- Who redeems finds the key of the token and deletes it. -/
theorem redeemed_step {token phone : Text} {purpose : Option OtpPurpose} {a : Move ι ProofEvent}
    (hstep : (proofSystem policy ι).step c a c')
    (hlabel : a.2 = some (.redeemed token phone purpose)) :
    (∃ proof, c.store.tokens.get (policy.digest token) = some proof ∧ proof.phone = phone ∧
      proof.purpose = purpose) ∧
    c'.store.tokens.get (policy.digest token) = none ∧ c'.store.origin = c.store.origin := by
  cases hstep with
  | read => cases hlabel
  | commit i ev m' s' hcommit hfree =>
    have hcommit : ProofCommit policy (c.proc i) c.store ev m' s' := hcommit
    obtain rfl := Option.some.inj hlabel
    generalize c.proc i = m at hcommit
    cases hcommit with
    | redeemed _ proof hget =>
      exact ⟨⟨proof, hget, rfl, rfl⟩, (Table.get_remove _ _ _).trans (if_pos rfl), rfl⟩

theorem step_monotone {a : Move ι ProofEvent} (hstep : (proofSystem policy ι).step c a c')
    {digest : Text} {id : OtpId} (horigin : c.store.origin.get digest = some id) :
    c'.store.origin.get digest = some id ∧
      (c.store.tokens.get digest = none → c'.store.tokens.get digest = none) := by
  cases hstep with
  | read => exact ⟨horigin, fun hnone => hnone⟩
  | commit i ev m' s' hcommit hfree =>
    have hcommit : ProofCommit policy (c.proc i) c.store ev m' s' := hcommit
    exact (commit_monotone hcommit).2.1 digest id horigin

/-- A property that every step keeps and that rules an event out rules it out in all runs. -/
theorem never_mints {l : List (Config ι ProofStore PhoneVerify × Move ι ProofEvent ×
      Config ι ProofStore PhoneVerify)} {id : OtpId}
    {Q : Config ι ProofStore PhoneVerify → Prop}
    (hkeep : ∀ c a c', (proofSystem policy ι).step c a c' → Q c → Q c')
    (hblocks : ∀ c i now record, (proofSystem policy ι).Reach c → Q c →
      c.proc i ≠ confirmed id now record)
    (hc : (proofSystem policy ι).Reach c) (hrun : (proofSystem policy ι).Run c l c') (h : Q c) :
    ∀ e ∈ l, ¬ Mints id e := by
  rintro ⟨c₁, a, c₂⟩ he hmints
  obtain ⟨hstep, l', hbefore⟩ := hrun.step_mem he
  have hQ : Q c₁ := hbefore.keeps (fun c a c' _ hQ hstep => hkeep c a c' hstep hQ) hc h
  obtain ⟨⟨now, record, hproc⟩, _⟩ := minted_step hstep hmints
  exact hblocks c₁ a.1 now record (hbefore.reach hc) hQ hproc

end Runs

/-- In every run of verifications and redemptions, with keys that lapse at any time: a challenge
mints one token at most; it mints none once its hash has lapsed or is a stub, unless a
verification has found it whole after its claim, and none once it has expired by the clock,
unless a verification goes on that started before; every token is redeemed once at most, and for
the phone and the purpose that its challenge was issued for. -/
theorem phone_proofs_single_use (policy : PhonePolicy) {ι : Type*} [DecidableEq ι]
    {c c' : Config ι ProofStore PhoneVerify}
    {l : List (Config ι ProofStore PhoneVerify × Move ι ProofEvent ×
      Config ι ProofStore PhoneVerify)}
    (hc : (proofSystem policy ι).Reach c) (hrun : (proofSystem policy ι).Run c l c') :
    (∀ id, l.Pairwise fun e e' => ¬ (Mints id e ∧ Mints id e')) ∧
    (∀ id, HashGone id c → ∀ e ∈ l, ¬ Mints id e) ∧
    (∀ id issue, c.store.issued.get id = some issue → Outlived issue c →
      ∀ e ∈ l, ¬ Mints id e) ∧
    (∀ token, l.Pairwise fun e e' => ¬ (Redeems token e ∧ Redeems token e')) ∧
    ∀ e ∈ l, ∀ token phone purpose, e.2.1.2 = some (.redeemed token phone purpose) →
      ∃ id issue, e.1.store.origin.get (policy.digest token) = some id ∧
        e.1.store.issued.get id = some issue ∧ phone = issue.phone ∧
        purpose = some issue.purpose := by
  refine ⟨fun id => ?_, fun id hgone => ?_, fun id issue hissue houtlived => ?_, fun token => ?_, ?_⟩
  · refine (hrun.at_most_once (Q := fun c => ∃ digest, c.store.origin.get digest = some id)
      (Y := Mints id) (fun c₁ a c₂ _ hstep hspent => ?_)
      (fun c₁ a c₂ hc₁ hstep hmints => ?_) hc).1
    · obtain ⟨digest, horigin⟩ := hspent
      exact ⟨digest, (step_monotone hstep horigin).1⟩
    · obtain ⟨⟨now, record, hproc⟩, hspent⟩ := minted_step hstep hmints
      refine ⟨fun ⟨digest, horigin⟩ => ?_, hspent⟩
      refine (mintInv_reach hc₁).spent digest id horigin a.1 ?_
      rw [hproc]
      exact rfl
  · exact never_mints (fun _ _ _ hstep h => h.step hstep)
      (fun _ i now record _ h => h.unconfirmed i now record) hc hrun hgone
  · refine never_mints (Q := fun c => c.store.issued.get id = some issue ∧ Outlived issue c)
      (fun c₁ a c₂ hstep ⟨hissue, h⟩ => ⟨?_, h.step hstep⟩)
      (fun c₁ i now record hc₁ ⟨hissue, h⟩ hproc => ?_) hc hrun ⟨hissue, houtlived⟩
    · cases hstep with
      | read => exact hissue
      | commit i ev m' s' hcommit hfree =>
        have hcommit : ProofCommit policy (c₁.proc i) c₁.store ev m' s' := hcommit
        exact ((commit_monotone hcommit).1 id issue hissue).1
    · have hsubject : (c₁.proc i).subject = some (id, now, record) := by
        rw [hproc]
        rfl
      obtain ⟨issue', hissue', _, _, hlive⟩ :=
        (issueInv_reach hc₁).subjects i id now record hsubject
      obtain rfl : issue = issue' := Option.some.inj (hissue.symm.trans hissue')
      have hlate : issue.expiresAt ≤ now := by
        refine h.2 i now ?_
        rw [hproc]
        rfl
      exact absurd hlive (not_lt_of_ge hlate)
  · refine (hrun.at_most_once
      (Q := fun c => ∃ id, c.store.origin.get (policy.digest token) = some id ∧
        c.store.tokens.get (policy.digest token) = none)
      (Y := Redeems token) (fun c₁ a c₂ _ hstep ⟨id, horigin, hnone⟩ => ?_)
      (fun c₁ a c₂ hc₁ hstep ⟨phone, purpose, hlabel⟩ => ?_) hc).1
    · obtain ⟨hkept, hgone⟩ := step_monotone hstep horigin
      exact ⟨id, hkept, hgone hnone⟩
    · obtain ⟨⟨proof, hget, _⟩, hgone, hsame⟩ := redeemed_step hstep hlabel
      obtain ⟨id, _, horigin, _⟩ := (issueInv_reach hc₁).tokens _ proof hget
      refine ⟨fun ⟨_, _, hnone⟩ => ?_, id, by rw [hsame]; exact horigin, hgone⟩
      rw [hget] at hnone
      cases hnone
  · rintro ⟨c₁, a, c₂⟩ he token phone purpose hlabel
    obtain ⟨hstep, l', hbefore⟩ := hrun.step_mem he
    obtain ⟨⟨proof, hget, rfl, rfl⟩, _⟩ := redeemed_step hstep hlabel
    exact (issueInv_reach (hbefore.reach hc)).tokens _ proof hget

section Example

def plainProofs : PhonePolicy where
  ttl := seconds 300
  maxVerifyAttempts := 5
  max_positive := by decide
  hmacHex salt code := salt ++ code
  verifiedTokenTtl := seconds 600

def proofless : ProofStore := ⟨.empty, .empty, 0, .empty, .empty⟩

/-- A challenge that has been issued and met, with the token that was minted from it. -/
def proven : ProofStore :=
  ((proofless.request plainProofs 0 ['s'] ['7'] ⟨['1'], .register, seconds 300⟩).claim 0 0).mint 0
    (plainProofs.digest ['t']) ⟨['1'], some .register, seconds 600⟩

/-- A token that is minted and redeemed stands for what its challenge was issued for. -/
theorem phone_proof_redeemed : ∃ id issue,
    proven.origin.get (plainProofs.digest ['t']) = some id ∧
      proven.issued.get id = some issue ∧ ['1'] = issue.phone ∧
      some OtpPurpose.register = some issue.purpose := by
  have hfree (m : PhoneVerify) (k : Empty) : (proofProtocol plainProofs).locks m k →
      ¬ (proofProtocol plainProofs).locks idle k := k.elim
  have hstart : (proofProtocol plainProofs).Reaches ProofStore.Initial (fun _ _ => True)
      proofless idle idle := Protocol.reaches_start ⟨rfl, rfl, rfl, rfl⟩ rfl rfl
  have hrequested := hstart.commit_left (.requested 0 ['s'] ['7'] ['1'] .register 0 le_rfl rfl)
    (hfree _) trivial
  have hbegun := hrequested.read_left .start (hfree _) trivial
  have hloaded := hbegun.read_left (.load 0 0 _ ['s'] ['s', '7'] rfl rfl) (hfree _) trivial
  have hmatched := hloaded.read_left (.match 0 0 _ ['s'] ['s', '7'] ['7'] rfl) (hfree _) trivial
  have hclaimed := hmatched.commit_left (.claimed 0 0 _ rfl) (hfree _) trivial
  have hconfirmed := hclaimed.read_left (.confirm 0 0 _ (by decide)) (hfree _) trivial
  have hminted : (proofProtocol plainProofs).Reaches ProofStore.Initial (fun _ _ => True) proven
      idle idle :=
    hconfirmed.commit_left (.minted 0 0 _ ['t'] ['1'] rfl rfl) (hfree _) trivial
  have hredeem : ProofCommit plainProofs idle proven (.redeemed ['t'] ['1'] (some .register)) idle
      { proven with tokens := proven.tokens.remove (plainProofs.digest ['t']) } :=
    .redeemed ['t'] ⟨['1'], some .register, seconds 600⟩ rfl (by decide)
  have hstep := Protocol.Step.commit (P := proofProtocol plainProofs) ⟨proven, pair idle idle⟩
    false _ _ _ hredeem (Protocol.free_left (hfree _))
  have hproof := (phone_proofs_single_use plainProofs (System.Reach.of_guarded hminted)
    (.snoc (.nil _) hstep)).2.2.2.2
  exact hproof _ (List.mem_singleton_self _) ['t'] ['1'] (some .register) rfl

end Example

end CampusQuest.Identity
