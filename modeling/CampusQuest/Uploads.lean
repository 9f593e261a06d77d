import CampusQuest.Allocation

/-!
Upload intents. An intent is a single-use grant: finalizing it makes the next version of the
claim's submission, replaying a finalized one answers with the same submission, and an
object that contradicts the grant burns it.
-/

namespace CampusQuest.Lifecycle

open Tables Guards

/-- REVISION_REQUIRED reads the revision deadline, every other status the grace deadline;
the boundary instant is closed, and so is a missing deadline. -/
def submissionWindowOpen (claim : AssignmentClaim) (now : Instant) : Bool :=
  let deadline :=
    if claim.status = .revisionRequired then claim.revisionDeadlineAt
    else some claim.graceDeadlineAt
  match deadline with
  | some deadline => now < deadline
  | none => false

def FileType.contentType : FileType → String
  | .csv => "text/csv"
  | .xlsx => "application/vnd.openxmlformats-officedocument.spreadsheetml.sheet"
  | .sqlite => "application/vnd.sqlite3"
  | .docx => "application/vnd.openxmlformats-officedocument.wordprocessingml.document"
  | .pdf => "application/pdf"

def defaultIntentTtl : Duration := minutes 15

def defaultMaxUploadBytes : ℤ := 200 * 1024 * 1024

/-- The checks of an upload intent over the locked rows, in the order of the checklist. -/
def checkUpload (claim : AssignmentClaim) (task : Task) (declaredType : FileType)
    (declaredSize : ℤ) (now : Instant) (maxUploadBytes : ℤ) : Answer Unit := do
  ensure (claim.status.submittable = true) (.claimNotSubmittable claim.status)
  ensure (declaredType ∈ task.allowedFileTypes)
    (.fileTypeNotAllowed declaredType task.allowedFileTypes)
  ensure (declaredSize ≤ min task.maxFileSizeBytes maxUploadBytes)
    (.fileTooLarge declaredSize (min task.maxFileSizeBytes maxUploadBytes))
  ensure (submissionWindowOpen claim now = true)
    (.submissionWindowClosed claim.status claim.graceDeadlineAt claim.revisionDeadlineAt)

def newIntent (claimId : ClaimId) (objectKey : Text) (declaredType : FileType)
    (declaredSize : ℤ) (expiresAt : Instant) (hsize : 0 ≤ declaredSize) : UploadIntent where
  claimId := claimId
  objectKey := objectKey
  declaredType := declaredType
  declaredSize := declaredSize
  expiresAt := expiresAt
  consumedAt := none
  finalizedSubmissionId := none
  cleanupClaimedAt := none
  cleanupLeaseExpiresAt := none
  cleanupClaimToken := none
  cleanupDeletedAt := none
  declared_size := hsize
  finalized_implies_consumed := by simp

namespace Db

def putSubmission (db : Db) (id : SubmissionId) (s : Submission) : Db :=
  { db with submissions := db.submissions.put id s }

def putIntent (db : Db) (id : IntentId) (intent : UploadIntent) : Db :=
  { db with intents := db.intents.put id intent }

end Db

/-- The unique index over the object keys of the intents. -/
def Db.KeyGranted (db : Db) (objectKey : Text) : Prop :=
  db.intents.Any fun _ intent => intent.objectKey = objectKey

/-- The unique index over the object keys of the submissions. -/
def Db.KeySubmitted (db : Db) (objectKey : Text) : Prop :=
  db.submissions.Any fun _ s => s.objectKey = objectKey

instance (db : Db) (objectKey : Text) : Decidable (db.KeyGranted objectKey) :=
  inferInstanceAs (Decidable (Table.Any _ _))

instance (db : Db) (objectKey : Text) : Decidable (db.KeySubmitted objectKey) :=
  inferInstanceAs (Decidable (Table.Any _ _))

def createUploadIntent (db : Db) (now : Instant) (user : UserId) (claimId : ClaimId)
    (id : IntentId) (objectKey : Text) (declaredType : FileType) (size : ℤ) :
    Answer (UploadIntent × Db) := do
  requireActiveStudent .uploaderNotStudent db user
  let claim ← orRefuse (.claimNotFound claimId) (db.claims.get claimId)
  ensure (claim.userId = user) (.claimNotOwned claimId user)
  let task ← orRefuse (.taskNotFound claim.taskId) (db.tasks.get claim.taskId)
  checkUpload claim task declaredType size now defaultMaxUploadBytes
  ensure (db.intents.get id = none ∧ ¬ db.KeyGranted objectKey) .integrityError
  if hsize : 0 ≤ size then
    let intent := newIntent claimId objectKey declaredType size (now + defaultIntentTtl) hsize
    return (intent, db.putIntent id intent)
  else .error .integrityError

/-- `retention_snapshot`: an expiry or the explicit flag, never both. -/
def retentionSnapshot (policy : RetentionPolicy) (submittedAt : Instant) :
    Option Instant × Bool :=
  match policy with
  | .permanent => (none, true)
  | .days30 => (some (submittedAt + hours (24 * 30)), false)
  | .days90 => (some (submittedAt + hours (24 * 90)), false)
  | .days180 => (some (submittedAt + hours (24 * 180)), false)

structure ObjectHead where
  size : ℤ
  contentType : String
  deriving DecidableEq

theorem retentionSnapshot_exclusive (policy : RetentionPolicy) (submittedAt : Instant) :
    (retentionSnapshot policy submittedAt).2 = true ↔
      (retentionSnapshot policy submittedAt).1 = none := by
  cases policy <;> simp [retentionSnapshot]

def newSubmission (intent : UploadIntent) (maxVersion : ℕ) (size : ℤ) (now : Instant)
    (policy : RetentionPolicy) (hsize : 0 ≤ size) : Submission where
  claimId := intent.claimId
  version := maxVersion + 1
  objectKey := intent.objectKey
  declaredType := intent.declaredType
  detectedType := none
  fileSize := size
  submittedAt := now
  validationStatus := .uploaded
  reviewStatus := .pendingReview
  validationReport := none
  reviewerId := none
  reviewedAt := none
  reviewNote := none
  retentionUntil := (retentionSnapshot policy now).1
  retentionPermanent := (retentionSnapshot policy now).2
  legalHold := false
  deletedAt := none
  cleanupClaimedAt := none
  cleanupLeaseExpiresAt := none
  cleanupClaimToken := none
  file_size := hsize
  version_pos := by omega
  retention_exclusive := retentionSnapshot_exclusive policy now

def UploadIntent.consume (intent : UploadIntent) (now : Instant)
    (finalized : Option SubmissionId) : UploadIntent :=
  { intent with
    consumedAt := some now
    finalizedSubmissionId := finalized
    finalized_implies_consumed := by simp }

def AssignmentClaim.withLatest (claim : AssignmentClaim) (id : SubmissionId) : AssignmentClaim :=
  { claim with latestSubmissionId := some id }

/-- The part of a finalize under an open intent. A burn commits before its error is raised,
so the error is then part of the answer. -/
def finalizeOpenIntent (db : Db) (now : Instant) (intentId : IntentId) (intent : UploadIntent)
    (claim : AssignmentClaim) (id : SubmissionId) (head : Option ObjectHead) :
    Answer (Except LifecycleError Submission × Db) := do
  ensure (intent.consumedAt = none) (.uploadIntentNotFound intentId)
  ensure (claim.status.submittable = true) (.claimNotSubmittable claim.status)
  ensure (now < intent.expiresAt) (.uploadIntentNotFound intentId)
  ensure (submissionWindowOpen claim now = true)
    (.submissionWindowClosed claim.status claim.graceDeadlineAt claim.revisionDeadlineAt)
  let head ← orRefuse (.uploadObjectMissing intentId) head
  let burned := db.putIntent intentId (intent.consume now none)
  if hsize : head.size ≠ intent.declaredSize then
    return (.error (.uploadSizeMismatch intent.declaredSize head.size), burned)
  else if head.contentType ≠ intent.declaredType.contentType then
    return (.error (.uploadTypeMismatch intent.declaredType head.contentType
      intent.declaredType.contentType), burned)
  else do
    let task ← orRefuse (.taskNotFound claim.taskId) (db.tasks.get claim.taskId)
    ensure (db.submissions.get id = none ∧ ¬ db.KeySubmitted intent.objectKey) .integrityError
    have hnonneg : 0 ≤ head.size := by
      have hdeclared := intent.declared_size
      omega
    let submission := newSubmission intent (db.maxVersion intent.claimId) head.size now
      task.retentionPolicy hnonneg
    return (.ok submission, ((db.putSubmission id submission).putIntent intentId
      (intent.consume now (some id))).putClaim intent.claimId (claim.withLatest id))

/-- `head` is what the object store answered before the locks; a replay does not need it. -/
def finalizeUpload (db : Db) (now : Instant) (user : UserId) (intentId : IntentId)
    (id : SubmissionId) (head : Option ObjectHead) :
    Answer (Except LifecycleError Submission × Db) := do
  let intent ← orRefuse (.uploadIntentNotFound intentId) (db.intents.get intentId)
  requireActiveStudent .uploaderNotStudent db user
  let claim ← orRefuse (.claimNotFound intent.claimId) (db.claims.get intent.claimId)
  ensure (claim.userId = user) (.claimNotOwned intent.claimId user)
  match intent.finalizedSubmissionId with
  | some finalized => do
    let submission ← orRefuse (.uploadIntentNotFound intentId) (db.submissions.get finalized)
    return (.ok submission, db)
  | none => finalizeOpenIntent db now intentId intent claim id head

/-- What a finalize reads before it asks the object store, with no lock held. -/
structure IntentLocator where
  claimId : ClaimId
  objectKey : Text
  finalizedSubmissionId : Option SubmissionId
  deriving DecidableEq

def UploadIntent.locator (intent : UploadIntent) : IntentLocator :=
  ⟨intent.claimId, intent.objectKey, intent.finalizedSubmissionId⟩

/-- The locked section of a finalize: the locator leads to the claim, and the intent is read
again under its lock. -/
def finalizeLocated (db : Db) (now : Instant) (user : UserId) (intentId : IntentId)
    (locator : IntentLocator) (id : SubmissionId) (head : Option ObjectHead) :
    Answer (Except LifecycleError Submission × Db) := do
  requireActiveStudent .uploaderNotStudent db user
  let claim ← orRefuse (.claimNotFound locator.claimId) (db.claims.get locator.claimId)
  ensure (claim.userId = user) (.claimNotOwned locator.claimId user)
  let intent ← orRefuse (.uploadIntentNotFound intentId) (db.intents.get intentId)
  match intent.finalizedSubmissionId with
  | some finalized => do
    let submission ← orRefuse (.uploadIntentNotFound intentId) (db.submissions.get finalized)
    return (.ok submission, db)
  | none => finalizeOpenIntent db now intentId intent claim id head

section Outcomes

variable {db db' : Db} {now : Instant}

/-- Under a locator that still leads to the intent's claim, the locked section does what an
undivided finalize does. -/
theorem finalizeLocated_eq {user : UserId} {intentId : IntentId} {locator : IntentLocator}
    {id : SubmissionId} {head : Option ObjectHead} {intent : UploadIntent}
    (hintent : db.intents.get intentId = some intent) (hclaim : intent.claimId = locator.claimId) :
    finalizeLocated db now user intentId locator id head =
      finalizeUpload db now user intentId id head := by
  unfold finalizeLocated finalizeUpload
  rw [hintent, orRefuse_some_bind, ← hclaim]
  rfl

/-- A committed upload intent is new under a new key and writes nothing but itself. -/
theorem createUploadIntent_ok {user : UserId} {claimId : ClaimId} {id : IntentId}
    {objectKey : Text} {declaredType : FileType} {size : ℤ} {intent : UploadIntent}
    (h : createUploadIntent db now user claimId id objectKey declaredType size =
      .ok (intent, db')) :
    (∃ hsize, intent = newIntent claimId objectKey declaredType size (now + defaultIntentTtl)
      hsize) ∧ db.intents.get id = none ∧ ¬ db.KeyGranted objectKey ∧
        db' = db.putIntent id intent := by
  unfold createUploadIntent at h
  obtain ⟨_, _, h⟩ := bind_ok.mp h
  obtain ⟨claim, _, h⟩ := orRefuse_bind_ok.mp h
  obtain ⟨_, h⟩ := ensure_bind_ok.mp h
  obtain ⟨task, _, h⟩ := orRefuse_bind_ok.mp h
  obtain ⟨_, _, h⟩ := bind_ok.mp h
  obtain ⟨⟨hfresh, hkey⟩, h⟩ := ensure_bind_ok.mp h
  split at h
  next hsize =>
    cases h
    exact ⟨⟨hsize, rfl⟩, hfresh, hkey, rfl⟩
  next => cases h

/-- An intent that a finalize may use up: not consumed, not expired, and its claim awaits the
student while its window is open. -/
structure OpenIntent (db : Db) (now : Instant) (intentId : IntentId) (intent : UploadIntent)
    (claim : AssignmentClaim) : Prop where
  found : db.intents.get intentId = some intent
  unconsumed : intent.consumedAt = none
  unexpired : now < intent.expiresAt
  held : db.claims.get intent.claimId = some claim
  actionable : claim.status.actionable = true
  window : submissionWindowOpen claim now = true

/-- A finalize is a replay of a finalized intent, or it burns an open intent, or it makes the
next version of an open intent's claim under a key that no submission has. -/
theorem finalizeUpload_ok {user : UserId} {intentId : IntentId} {id : SubmissionId}
    {head : Option ObjectHead} {out : Except LifecycleError Submission}
    (h : finalizeUpload db now user intentId id head = .ok (out, db')) :
    (∃ intent finalized s, db.intents.get intentId = some intent ∧
      intent.finalizedSubmissionId = some finalized ∧ db.submissions.get finalized = some s ∧
        out = .ok s ∧ db' = db) ∨
    (∃ intent claim e, OpenIntent db now intentId intent claim ∧ out = .error e ∧
      db' = db.putIntent intentId (intent.consume now none)) ∨
    ∃ intent claim size policy hsize, OpenIntent db now intentId intent claim ∧
      db.submissions.get id = none ∧ ¬ db.KeySubmitted intent.objectKey ∧
      out = .ok (newSubmission intent (db.maxVersion intent.claimId) size now policy hsize) ∧
      db' = ((db.putSubmission id (newSubmission intent (db.maxVersion intent.claimId) size
        now policy hsize)).putIntent intentId (intent.consume now (some id))).putClaim
          intent.claimId (claim.withLatest id) := by
  unfold finalizeUpload at h
  obtain ⟨intent, hintent, h⟩ := orRefuse_bind_ok.mp h
  obtain ⟨_, _, h⟩ := bind_ok.mp h
  obtain ⟨claim, hclaim, h⟩ := orRefuse_bind_ok.mp h
  obtain ⟨_, h⟩ := ensure_bind_ok.mp h
  split at h
  next finalized hfinalized =>
    obtain ⟨s, hs, h⟩ := orRefuse_bind_ok.mp h
    cases h
    exact Or.inl ⟨intent, finalized, s, hintent, hfinalized, hs, rfl, rfl⟩
  next =>
    right
    unfold finalizeOpenIntent at h
    obtain ⟨hunconsumed, h⟩ := ensure_bind_ok.mp h
    obtain ⟨hsubmittable, h⟩ := ensure_bind_ok.mp h
    obtain ⟨hunexpired, h⟩ := ensure_bind_ok.mp h
    obtain ⟨hwindow, h⟩ := ensure_bind_ok.mp h
    obtain ⟨head, _, h⟩ := orRefuse_bind_ok.mp h
    have hopen : OpenIntent db now intentId intent claim :=
      ⟨hintent, hunconsumed, hunexpired, hclaim, hsubmittable, hwindow⟩
    split at h
    next =>
      cases h
      exact Or.inl ⟨intent, claim, _, hopen, rfl, rfl⟩
    next =>
      split at h
      next =>
        cases h
        exact Or.inl ⟨intent, claim, _, hopen, rfl, rfl⟩
      next =>
        obtain ⟨task, _, h⟩ := orRefuse_bind_ok.mp h
        obtain ⟨⟨hfresh, hkey⟩, h⟩ := ensure_bind_ok.mp h
        cases h
        exact Or.inr ⟨intent, claim, head.size, task.retentionPolicy, _, hopen, hfresh, hkey, rfl,
          rfl⟩

end Outcomes

end CampusQuest.Lifecycle
