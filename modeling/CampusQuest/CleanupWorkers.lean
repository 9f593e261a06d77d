import CampusQuest.CleanupRepository

/-!
The cleanup worker, cut where it leaves the database. A scan samples the clock once, lists
what is due and decides one record after the other: claim, DELETE at the provider, and then
mark, keep or release by what the provider answered.
-/

namespace CampusQuest.Lifecycle

open Tables Leases

inductive Record
  | file (record : FileRecord)
  | intent (record : IntentRecord)
  deriving DecidableEq

namespace Record

def target : Record → Target
  | file record => .file record.submissionId
  | intent record => .intent record.intentId

def objectKey : Record → Text
  | file record => record.objectKey
  | intent record => record.objectKey

end Record

/-- What `delete_object` comes to: the object is deleted, was missing, or the provider
failed. -/
inductive ProviderOutcome
  | deleted
  | missing
  | temporary
  | permanent
  | unknown
  deriving DecidableEq, Repr

def ProviderOutcome.gone : ProviderOutcome → Bool
  | deleted | missing => true
  | temporary | permanent | unknown => false

inductive FileCleanupOutcome
  | deleted
  | reconciledMissing
  | alreadyDeleted
  | skippedPermanent
  | skippedLegalHold
  | skippedUnderReview
  | skippedRetentionNotDue
  | skippedClaimLost
  | failedStorageTemporary
  | failedStoragePermanent
  | failedStorageUnknown
  deriving DecidableEq, Repr

inductive OrphanIntentOutcome
  | deleted
  | missingObject
  | skippedClaimLost
  | failedStorageTemporary
  | failedStoragePermanent
  | failedStorageUnknown
  deriving DecidableEq, Repr

/-- `_guard`: the snapshot's own guards, permanent first; a missing expiry is never due. -/
def guardRecord (record : FileRecord) (now : Instant) : Option FileCleanupOutcome :=
  if record.permanent = true then some .skippedPermanent
  else if record.legalHold = true then some .skippedLegalHold
  else if record.underReview = true then some .skippedUnderReview
  else if record.retentionUntil.any (· ≤ now) = true then none
  else some .skippedRetentionNotDue

inductive WorkerPhase
  | idle
  | claimed (record : Record) (token : ℕ)
  | sent (record : Record) (token : ℕ)
  | answered (record : Record) (token : ℕ) (outcome : ProviderOutcome)
  deriving DecidableEq

/-- A scan with its clock sample, the records still to decide and the outcomes so far. -/
structure Worker where
  now : Instant
  queue : List Record
  phase : WorkerPhase
  files : List FileCleanupOutcome
  intents : List OrphanIntentOutcome
  deriving DecidableEq

namespace Worker

def start (now : Instant) : Worker := ⟨now, [], .idle, [], []⟩

def decideFile (x : Worker) (outcome : FileCleanupOutcome) : Worker :=
  { x with phase := .idle, files := x.files ++ [outcome] }

def decideIntent (x : Worker) (outcome : OrphanIntentOutcome) : Worker :=
  { x with phase := .idle, intents := x.intents ++ [outcome] }

/-- The first part of `cleanup_expired_file` and of `cleanup_orphaned_intent`, up to the
claim. -/
def next (db : Db) (leaseLength : Duration) (x : Worker) (token : ℕ) : Option (Worker × Db) :=
  match x.phase, x.queue with
  | .idle, .file record :: rest =>
    match guardRecord record x.now with
    | some skipped => some ({ x with queue := rest }.decideFile skipped, db)
    | none =>
      match claimForCleanup db leaseLength record x.now token with
      | none => some ({ x with queue := rest }.decideFile .skippedClaimLost, db)
      | some db' => some ({ x with queue := rest, phase := .claimed (.file record) token }, db')
  | .idle, .intent record :: rest =>
    match claimIntent db leaseLength record x.now token with
    | none => some ({ x with queue := rest }.decideIntent .skippedClaimLost, db)
    | some db' => some ({ x with queue := rest, phase := .claimed (.intent record) token }, db')
  | _, _ => none

/-- The last part of `cleanup_expired_file`. A provider failure keeps the claim, so that only
a takeover can settle the row. -/
def finishFile (db : Db) (x : Worker) (record : FileRecord) (token : ℕ) :
    ProviderOutcome → Option (Worker × Db)
  | .deleted => (markDeleted db record token x.now).map fun marked =>
    (x.decideFile (if marked.1 = .alreadyDeleted then .alreadyDeleted else .deleted), marked.2)
  | .missing => (markDeleted db record token x.now).map fun marked =>
    (x.decideFile (if marked.1 = .alreadyDeleted then .alreadyDeleted else .reconciledMissing),
      marked.2)
  | .temporary => some (x.decideFile .failedStorageTemporary, db)
  | .permanent => some (x.decideFile .failedStoragePermanent, db)
  | .unknown => some (x.decideFile .failedStorageUnknown, db)

/-- The last part of `cleanup_orphaned_intent`. A provider failure releases the claim. -/
def finishIntent (db : Db) (x : Worker) (record : IntentRecord) (token : ℕ) :
    ProviderOutcome → Worker × Db
  | .deleted => (x.decideIntent .deleted, markIntentDeleted db record token x.now)
  | .missing => (x.decideIntent .missingObject, markIntentDeleted db record token x.now)
  | .temporary => (x.decideIntent .failedStorageTemporary, releaseIntent db record token)
  | .permanent => (x.decideIntent .failedStoragePermanent, releaseIntent db record token)
  | .unknown => (x.decideIntent .failedStorageUnknown, releaseIntent db record token)

/-- After the provider's answer. A worker whose mark raises is gone. -/
def finish (db : Db) (x : Worker) : Option (Worker × Db) :=
  match x.phase with
  | .answered (.file record) token outcome => x.finishFile db record token outcome
  | .answered (.intent record) token outcome => some (x.finishIntent db record token outcome)
  | _ => none

end Worker

def Claimable (db : Db) (now : Instant) : Record → Prop
  | .file record => ∃ s claim, db.submissions.get record.submissionId = some s ∧
      s.deletedAt = none ∧ db.claims.get s.claimId = some claim ∧ claim.status.ownsFiles = false
  | .intent record => ∃ i, db.intents.get record.intentId = some i ∧ i.expiresAt ≤ now ∧
      i.finalizedSubmissionId = none ∧ i.cleanupDeletedAt = none

def Record.close (record : Record) (token : ℕ) (outcome : ProviderOutcome) (now : Instant)
    (l : CleanupLease) : CleanupLease :=
  if outcome.gone = true then l.finish token now
  else
    match record with
    | .file _ => l
    | .intent _ => l.release token

section Outcomes

variable {db db' : Db} {length : Duration} {x x' : Worker} {token : ℕ} {now : Instant}

theorem claimable_deletedAt {record : Record} (h : Claimable db now record) {l : CleanupLease}
    (hl : db.lease record.target = some l) : l.doneAt = none := by
  cases record with
  | file r =>
    obtain ⟨s, _, hget, hopen, _⟩ := h
    simp only [Record.target, Db.lease, hget, Option.map_some, Option.some.injEq] at hl
    rw [← hl]
    exact hopen
  | intent r =>
    obtain ⟨i, hget, _, _, hopen⟩ := h
    simp only [Record.target, Db.lease, hget, Option.map_some, Option.some.injEq] at hl
    rw [← hl]
    exact hopen

/-- An idle worker takes its next record: it decides it without a claim, or it wins one. -/
theorem Worker.next_eq_some (h : x.next db length token = some (x', db')) :
    x.phase = .idle ∧ x'.now = x.now ∧ ∃ record, record :: x'.queue = x.queue ∧
      ((x'.phase = .idle ∧ db' = db) ∨ (x'.phase = .claimed record token ∧
        Claimable db x.now record ∧
          db' = db.modifyLease record.target fun l => l.take x.now (x.now + length) token)) := by
  unfold Worker.next at h
  split at h
  next record rest hphase hqueue =>
    rw [hqueue]
    split at h
    next =>
      cases h
      exact ⟨hphase, rfl, .file record, rfl, Or.inl ⟨rfl, rfl⟩⟩
    next =>
      split at h
      next =>
        cases h
        exact ⟨hphase, rfl, .file record, rfl, Or.inl ⟨rfl, rfl⟩⟩
      next db₁ hclaim =>
        cases h
        obtain ⟨s, claim, hget, hopen, hc, howns, hdb⟩ := claimForCleanup_eq_some hclaim
        exact ⟨hphase, rfl, .file record, rfl,
          Or.inr ⟨rfl, ⟨s, claim, hget, hopen, hc, howns⟩, hdb⟩⟩
  next record rest hphase hqueue =>
    rw [hqueue]
    split at h
    next =>
      cases h
      exact ⟨hphase, rfl, .intent record, rfl, Or.inl ⟨rfl, rfl⟩⟩
    next db₁ hclaim =>
      cases h
      obtain ⟨i, hget, hexpired, hunfinalized, hopen, hdb⟩ := claimIntent_eq_some hclaim
      exact ⟨hphase, rfl, .intent record, rfl,
        Or.inr ⟨rfl, ⟨i, hget, hexpired, hunfinalized, hopen⟩, hdb⟩⟩
  next => cases h

/-- A worker that has finished a record is idle again and has closed its own lease. -/
theorem Worker.finish_eq_some (h : x.finish db = some (x', db')) :
    ∃ record token outcome, x.phase = .answered record token outcome ∧ x'.phase = .idle ∧
      x'.queue = x.queue ∧ x'.now = x.now ∧
        db' = db.modifyLease record.target (record.close token outcome x.now) := by
  unfold Worker.finish at h
  split at h
  next record token outcome hphase =>
    refine ⟨.file record, token, outcome, hphase, ?_⟩
    have hkept : db = db.modifyLease (.file record.submissionId) fun l => l :=
      (modifyLease_same fun _ _ => rfl).symm
    unfold Worker.finishFile at h
    cases outcome with
    | deleted | missing =>
      obtain ⟨⟨outcome', db₁⟩, hmark, heq⟩ := Option.map_eq_some_iff.mp h
      cases heq
      exact ⟨rfl, rfl, rfl, markDeleted_eq_some hmark⟩
    | temporary | permanent | unknown =>
      cases h
      exact ⟨rfl, rfl, rfl, hkept⟩
  next record token outcome hphase =>
    refine ⟨.intent record, token, outcome, hphase, ?_⟩
    unfold Worker.finishIntent at h
    cases outcome with
    | deleted | missing | temporary | permanent | unknown =>
      cases h
      exact ⟨rfl, rfl, rfl, rfl⟩
  next => cases h

/-- A failed delete keeps the claim of a submission. -/
theorem close_file_failed {record : FileRecord} {outcome : ProviderOutcome}
    (h : outcome.gone = false) (l : CleanupLease) :
    (Record.file record).close token outcome now l = l := by
  unfold Record.close
  simp [h]

end Outcomes

end CampusQuest.Lifecycle
