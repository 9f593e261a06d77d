import CampusQuest.ObjectKeys

/-!
The file cleanup's repository. A due submission and an expired upload intent are claimed
under a lease with a fresh token; the worker then deletes the object and marks the row by
compare-and-set on that token. Each function is one short transaction.
-/

namespace CampusQuest.Lifecycle

open Tables Leases

/-- `_UNDER_REVIEW_CLAIM_STATUSES`: the review pipeline still owns the files. -/
def ClaimStatus.ownsFiles : ClaimStatus → Bool
  | validating | underReview => true
  | claimed | revisionRequired | completed | abandoned | expired => false

structure FileRecord where
  submissionId : SubmissionId
  objectKey : Text
  retentionUntil : Option Instant
  permanent : Bool
  legalHold : Bool
  underReview : Bool
  deletedAt : Option Instant
  deriving DecidableEq

structure IntentRecord where
  intentId : IntentId
  objectKey : Text
  deriving DecidableEq

inductive MarkOutcome
  | marked
  | alreadyDeleted
  | claimLost
  deriving DecidableEq, Repr

inductive Target
  | file (id : SubmissionId)
  | intent (id : IntentId)
  deriving DecidableEq

/-- No claim, or a claim whose lease has expired; an unknown lease reads as live. -/
def leaseFree (l : CleanupLease) (now : Instant) : Bool :=
  l.claimedAt.isNone || l.expiresAt.any fun stop => stop ≤ now

namespace Db

def lease (db : Db) : Target → Option CleanupLease
  | .file id => (db.submissions.get id).map Submission.lease
  | .intent id => (db.intents.get id).map UploadIntent.lease

def keyOf (db : Db) : Target → Option Text
  | .file id => (db.submissions.get id).map Submission.objectKey
  | .intent id => (db.intents.get id).map UploadIntent.objectKey

def modifyLease (db : Db) (t : Target) (f : CleanupLease → CleanupLease) : Db :=
  match t with
  | .file id =>
    match db.submissions.get id with
    | some s => db.putSubmission id (s.withLease (f s.lease))
    | none => db
  | .intent id =>
    match db.intents.get id with
    | some i => db.putIntent id (i.withLease (f i.lease))
    | none => db

end Db

/-- The row of `collect_due_files`, if the submission is a candidate. -/
def dueFile (db : Db) (now : Instant) (id : SubmissionId) : Option FileRecord := do
  let s ← db.submissions.get id
  let claim ← db.claims.get s.claimId
  if s.deletedAt.isNone && !s.retentionPermanent && !s.legalHold &&
      s.retentionUntil.any (· ≤ now) && leaseFree s.lease now && !claim.status.ownsFiles then
    some ⟨id, s.objectKey, s.retentionUntil, false, false, false, none⟩
  else none

def collectDueFiles (db : Db) (now : Instant) (limit : ℕ) : List FileRecord :=
  (((db.submissions.keys.sort (· ≤ ·)).filterMap (dueFile db now)).mergeSort fun a b =>
    a.retentionUntil.getD now ≤ b.retentionUntil.getD now).take limit

/-- Under the locks of the submission and its claim every guard is judged again. -/
def claimForCleanup (db : Db) (leaseLength : Duration) (record : FileRecord) (now : Instant)
    (token : ℕ) : Option Db := do
  let s ← db.submissions.get record.submissionId
  if s.deletedAt.isSome || s.retentionPermanent || s.legalHold ||
      !(s.retentionUntil.any (· ≤ now)) || s.lease.live now ||
      !((db.claims.get s.claimId).any fun claim => !claim.status.ownsFiles) then none
  else some (db.modifyLease (.file record.submissionId) fun l =>
    l.take now (now + leaseLength) token)

/-- Kept for administrative repair: no worker calls it. -/
def releaseCleanupClaim (db : Db) (record : FileRecord) (token : ℕ) : Db :=
  db.modifyLease (.file record.submissionId) fun l => l.releaseOpen token

def markDeleted (db : Db) (record : FileRecord) (token : ℕ) (deletedAt : Instant) :
    Option (MarkOutcome × Db) := do
  let s ← db.submissions.get record.submissionId
  if s.cleanupClaimToken = some token ∧ s.deletedAt = none then
    some (.marked, db.modifyLease (.file record.submissionId) fun l => l.finish token deletedAt)
  else if s.deletedAt ≠ none then some (.alreadyDeleted, db)
  else if s.cleanupClaimToken ≠ some token then some (.claimLost, db)
  else none

def dueIntent (db : Db) (now : Instant) (id : IntentId) : Option IntentRecord := do
  let i ← db.intents.get id
  if i.expiresAt ≤ now ∧ i.finalizedSubmissionId = none ∧ i.cleanupDeletedAt = none ∧
      leaseFree i.lease now = true then
    some ⟨id, i.objectKey⟩
  else none

def collectDueIntents (db : Db) (now : Instant) (limit : ℕ) : List IntentRecord :=
  (((db.intents.keys.sort (· ≤ ·)).filterMap fun id =>
    (db.intents.get id).bind fun i => (dueIntent db now id).map fun r =>
      (i.expiresAt, r)).mergeSort fun a b => a.1 ≤ b.1).map (·.2) |>.take limit

/-- One conditional update; the intent's row is its whole serialization boundary. -/
def claimIntent (db : Db) (leaseLength : Duration) (record : IntentRecord) (now : Instant)
    (token : ℕ) : Option Db := do
  let _ ← dueIntent db now record.intentId
  some (db.modifyLease (.intent record.intentId) fun l => l.take now (now + leaseLength) token)

def markIntentDeleted (db : Db) (record : IntentRecord) (token : ℕ) (deletedAt : Instant) : Db :=
  db.modifyLease (.intent record.intentId) fun l => l.finish token deletedAt

def releaseIntent (db : Db) (record : IntentRecord) (token : ℕ) : Db :=
  db.modifyLease (.intent record.intentId) fun l => l.release token

section Rows

variable {db : Db} {t u : Target} {f : CleanupLease → CleanupLease}

theorem modifyLease_file {id : SubmissionId} {s : Submission}
    (h : db.submissions.get id = some s) :
    db.modifyLease (.file id) f = db.putSubmission id (s.withLease (f s.lease)) := by
  unfold Db.modifyLease
  simp only [h]

theorem modifyLease_intent {id : IntentId} {i : UploadIntent} (h : db.intents.get id = some i) :
    db.modifyLease (.intent id) f = db.putIntent id (i.withLease (f i.lease)) := by
  unfold Db.modifyLease
  simp only [h]

theorem modifyLease_of_none (h : db.lease t = none) : db.modifyLease t f = db := by
  cases t with
  | file id =>
    have hget : db.submissions.get id = none := Option.map_eq_none_iff.mp h
    unfold Db.modifyLease
    simp only [hget]
  | intent id =>
    have hget : db.intents.get id = none := Option.map_eq_none_iff.mp h
    unfold Db.modifyLease
    simp only [hget]

/-- A rewritten row has the new lease, and every other row the lease it had. -/
theorem lease_modifyLease (db : Db) (t u : Target) (f : CleanupLease → CleanupLease) :
    (db.modifyLease t f).lease u = if u = t then (db.lease t).map f else db.lease u := by
  cases hlease : db.lease t with
  | none =>
    rw [modifyLease_of_none hlease]
    split
    next hu => rw [hu, hlease, Option.map_none]
    next => rfl
  | some l =>
    cases t with
    | file id =>
      obtain ⟨s, hget, rfl⟩ := Option.map_eq_some_iff.mp hlease
      rw [modifyLease_file hget]
      cases u with
      | intent j => simp [Db.lease, Db.putSubmission]
      | file j =>
        simp only [Db.lease, Db.putSubmission, Target.file.injEq, Table.get_put]
        by_cases hj : j = id
        · simp [hj]
        · simp [hj]
    | intent id =>
      obtain ⟨i, hget, rfl⟩ := Option.map_eq_some_iff.mp hlease
      rw [modifyLease_intent hget]
      cases u with
      | file j => simp [Db.lease, Db.putIntent]
      | intent j =>
        simp only [Db.lease, Db.putIntent, Target.intent.injEq, Table.get_put]
        by_cases hj : j = id
        · simp [hj]
        · simp [hj]

/-- Only what becomes of the lease that is there matters. -/
theorem modifyLease_congr {g : CleanupLease → CleanupLease}
    (h : ∀ l, db.lease t = some l → f l = g l) : db.modifyLease t f = db.modifyLease t g := by
  cases hlease : db.lease t with
  | none => rw [modifyLease_of_none hlease, modifyLease_of_none hlease]
  | some l =>
    have hsame := h l hlease
    cases t with
    | file id =>
      obtain ⟨s, hget, rfl⟩ := Option.map_eq_some_iff.mp hlease
      rw [modifyLease_file hget, modifyLease_file hget, hsame]
    | intent id =>
      obtain ⟨i, hget, rfl⟩ := Option.map_eq_some_iff.mp hlease
      rw [modifyLease_intent hget, modifyLease_intent hget, hsame]

/-- A lease that stays as it is leaves the tables as they are. -/
theorem modifyLease_same (h : ∀ l, db.lease t = some l → f l = l) : db.modifyLease t f = db := by
  cases hlease : db.lease t with
  | none => exact modifyLease_of_none hlease
  | some l =>
    have hsame := h l hlease
    cases t with
    | file id =>
      obtain ⟨s, hget, rfl⟩ := Option.map_eq_some_iff.mp hlease
      rw [modifyLease_file hget, hsame, Submission.withLease_lease]
      unfold Db.putSubmission
      rw [Table.put_get hget]
    | intent id =>
      obtain ⟨i, hget, rfl⟩ := Option.map_eq_some_iff.mp hlease
      rw [modifyLease_intent hget, hsame, UploadIntent.withLease_lease]
      unfold Db.putIntent
      rw [Table.put_get hget]

@[simp] theorem modifyLease_claims (db : Db) (t : Target) (f : CleanupLease → CleanupLease) :
    (db.modifyLease t f).claims = db.claims := by
  cases hlease : db.lease t with
  | none => rw [modifyLease_of_none hlease]
  | some l =>
    cases t with
    | file id =>
      obtain ⟨s, hget, rfl⟩ := Option.map_eq_some_iff.mp hlease
      rw [modifyLease_file hget]
      rfl
    | intent id =>
      obtain ⟨i, hget, rfl⟩ := Option.map_eq_some_iff.mp hlease
      rw [modifyLease_intent hget]
      rfl

end Rows

section Outcomes

variable {db db' : Db} {now : Instant} {length : Duration} {token : ℕ}

theorem dueFile_eq_some {id : SubmissionId} {record : FileRecord}
    (h : dueFile db now id = some record) : record.submissionId = id ∧
      db.keyOf (.file id) = some record.objectKey ∧ record.permanent = false ∧
        record.legalHold = false ∧ record.underReview = false ∧
          record.retentionUntil.any (· ≤ now) = true := by
  unfold dueFile at h
  cases hget : db.submissions.get id with
  | none => simp [hget] at h
  | some s =>
    cases hclaim : db.claims.get s.claimId with
    | none => simp [hget, hclaim] at h
    | some claim =>
      simp only [hget, hclaim, Option.bind_eq_bind, Option.bind_some] at h
      split at h
      next hguards =>
        simp only [Bool.and_eq_true] at hguards
        cases h
        refine ⟨rfl, ?_, rfl, rfl, rfl, hguards.1.1.2⟩
        simp [Db.keyOf, hget]
      next => cases h

theorem mem_collectDueFiles {limit : ℕ} {record : FileRecord}
    (h : record ∈ collectDueFiles db now limit) : ∃ id, dueFile db now id = some record := by
  have hmem := List.mem_mergeSort.mp (List.mem_of_mem_take h)
  obtain ⟨id, _, hid⟩ := List.mem_filterMap.mp hmem
  exact ⟨id, hid⟩

theorem dueIntent_eq_some {id : IntentId} {record : IntentRecord}
    (h : dueIntent db now id = some record) : ∃ i, db.intents.get id = some i ∧
      i.expiresAt ≤ now ∧ i.finalizedSubmissionId = none ∧ i.cleanupDeletedAt = none ∧
        record = ⟨id, i.objectKey⟩ := by
  unfold dueIntent at h
  cases hget : db.intents.get id with
  | none => simp [hget] at h
  | some i =>
    simp only [hget, Option.bind_eq_bind, Option.bind_some] at h
    split at h
    next hguards =>
      cases h
      exact ⟨i, rfl, hguards.1, hguards.2.1, hguards.2.2.1, rfl⟩
    next => cases h

theorem mem_collectDueIntents {limit : ℕ} {record : IntentRecord}
    (h : record ∈ collectDueIntents db now limit) : ∃ id, dueIntent db now id = some record := by
  have hmem := List.mem_of_mem_take h
  obtain ⟨e, he, rfl⟩ := List.mem_map.mp hmem
  obtain ⟨id, _, hid⟩ := List.mem_filterMap.mp (List.mem_mergeSort.mp he)
  obtain ⟨i, _, hi⟩ := Option.bind_eq_some_iff.mp hid
  obtain ⟨r, hr, rfl⟩ := Option.map_eq_some_iff.mp hi
  exact ⟨id, hr⟩

/-- A won claim found the object still there and unprotected, and wrote nothing but its
lease. -/
theorem claimForCleanup_eq_some {record : FileRecord}
    (h : claimForCleanup db length record now token = some db') :
    ∃ s claim, db.submissions.get record.submissionId = some s ∧ s.deletedAt = none ∧
      db.claims.get s.claimId = some claim ∧ claim.status.ownsFiles = false ∧
        db' = db.modifyLease (.file record.submissionId) fun l =>
          l.take now (now + length) token := by
  unfold claimForCleanup at h
  cases hget : db.submissions.get record.submissionId with
  | none => simp [hget] at h
  | some s =>
    simp only [hget, Option.bind_eq_bind, Option.bind_some] at h
    split at h
    next => cases h
    next hguards =>
      cases h
      simp only [Bool.or_eq_true, not_or, Bool.not_eq_true', Bool.not_eq_false,
        Bool.not_eq_true, Option.isSome_eq_false_iff, Option.isNone_iff_eq_none] at hguards
      obtain ⟨⟨_, _⟩, hclaim⟩ := hguards
      rw [Option.any_eq_true] at hclaim
      obtain ⟨claim, hget', howns⟩ := hclaim
      refine ⟨s, claim, rfl, by tauto, hget', by simpa using howns, rfl⟩

/-- A won claim of an intent found it expired and never finalized. -/
theorem claimIntent_eq_some {record : IntentRecord}
    (h : claimIntent db length record now token = some db') :
    ∃ i, db.intents.get record.intentId = some i ∧ i.expiresAt ≤ now ∧
      i.finalizedSubmissionId = none ∧ i.cleanupDeletedAt = none ∧
        db' = db.modifyLease (.intent record.intentId) fun l =>
          l.take now (now + length) token := by
  unfold claimIntent at h
  cases hdue : dueIntent db now record.intentId with
  | none => simp [hdue] at h
  | some r =>
    obtain ⟨i, hget, hexpired, hunfinalized, hopen, _⟩ := dueIntent_eq_some hdue
    simp only [hdue, Option.bind_eq_bind, Option.bind_some, Option.some.injEq] at h
    exact ⟨i, hget, hexpired, hunfinalized, hopen, h.symm⟩

/-- Whatever a mark answers, the tables are those after the compare-and-set. -/
theorem markDeleted_eq_some {record : FileRecord} {deletedAt : Instant} {outcome : MarkOutcome}
    (h : markDeleted db record token deletedAt = some (outcome, db')) :
    db' = db.modifyLease (.file record.submissionId) fun l => l.finish token deletedAt := by
  unfold markDeleted at h
  cases hget : db.submissions.get record.submissionId with
  | none => simp [hget] at h
  | some s =>
    simp only [hget, Option.bind_eq_bind, Option.bind_some] at h
    have hlease : db.lease (.file record.submissionId) = some s.lease := by
      simp [Db.lease, hget]
    split at h
    next =>
      cases h
      rfl
    next hunmatched =>
      have hsame : db.modifyLease (.file record.submissionId) (fun l =>
          l.finish token deletedAt) = db := by
        refine modifyLease_same fun l hl => ?_
        rw [hlease] at hl
        cases hl
        exact if_neg hunmatched
      rw [hsame]
      split at h
      next =>
        cases h
        rfl
      next =>
        split at h
        next =>
          cases h
          rfl
        next => cases h

end Outcomes

end CampusQuest.Lifecycle
