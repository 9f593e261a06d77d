import CampusQuest.TaskRows

/-!
The lifecycle and the edits of a task. A draft takes every field, a published or paused task
only its presentation, and every entry into PUBLISHED passes the publish gate.
-/

namespace CampusQuest.Tasks

open Tables Guards
open Lifecycle (FileType TaskStatus DeadlineMode)

/-- `upper` is `str.upper`; `fits` tells whether the column types can hold a row. -/
structure TaskService where
  maxUploadBytes : ℤ
  upper : Text → Text
  fits : TaskRow → Bool

def isStaff (role : Role) : Bool := role == .teacher || role == .admin

section Values

def sorted (codes : List Text) : List Text := codes.mergeSort fun a b => decide (a ≤ b)

def utc : Datetime → Answer Instant
  | .aware instant => .ok instant
  | .naive _ => .error .naiveDeadline

def memberOr {E : Type} (members : List (Text × E)) (value : Text) : Answer E :=
  orRefuse (.unsupportedValue value) (members.lookup value)

def requiredText (e : TaskError) (maxLength : Option ℕ) (value : Text) : Answer Text := do
  ensure (strip value ≠ [] ∧ ∀ n ∈ maxLength, (strip value).length ≤ n) e
  return strip value

/-- The codes in upper case, each once and without blanks. -/
def normalizedCodes (upper : Text → Text) (values : List Text) : List Text :=
  values.foldl (fun normalized raw =>
    let code := upper (strip raw)
    if code ≠ [] ∧ code ∉ normalized then normalized ++ [code] else normalized) []

def normalizeCodes (upper : Text → Text) (supported values : List Text) : Answer (List Text) := do
  let normalized := normalizedCodes upper values
  let unsupported := normalized.filter (· ∉ supported)
  ensure (unsupported = []) (.unsupportedCodes (sorted unsupported))
  return normalized

def checkReward (points : ℤ) : Answer ℤ := do
  ensure (0 < points) .invalidReward
  return points

def checkDuration (minutes : ℤ) : Answer ℤ := do
  ensure (0 < minutes) .invalidDuration
  return minutes

def checkCutoff (minutes : ℤ) : Answer ℤ := do
  ensure (0 ≤ minutes) .unsupportedCutoff
  return minutes

def TaskService.validateSizeCap (svc : TaskService) (bytes : ℤ) : Answer ℤ := do
  ensure (0 < bytes ∧ bytes ≤ svc.maxUploadBytes) .invalidSizeCap
  return bytes

def checkSchema (schema : List (Text × Json)) : Answer (List (Text × Json)) := do
  ensure (schema.isEmpty = false) .invalidSchema
  return schema

def checkSchemaVersion (version : ℤ) : Answer ℤ := do
  ensure (1 ≤ version) .invalidSchema
  return version

def checkTargetCount (count : ℤ) : Answer ℤ := do
  ensure (1 ≤ count ∧ count ≤ maxTargetCount) .invalidTargetCount
  return count

def checkIfGiven {α β : Type} (check : α → Answer β) : Option α → Answer (Option β)
  | none => .ok none
  | some a => some <$> check a

def editField {α β : Type} (old : β) (check : α → Answer β) : Option α → Answer β
  | none => .ok old
  | some a => check a

/-- The same for a column that may be null. -/
def editNullable {α β : Type} (old : Option β) (check : α → Answer β) :
    Option α → Answer (Option β)
  | none => .ok old
  | some a => some <$> check a

end Values

/-- A row of a caller's values: the CHECK constraints and the column types have the last
word. -/
def TaskService.store (svc : TaskService) (db : Db) (id : TaskId) (row : TaskRow) : Answer Db :=
  if h : row.Checks then do
    ensure (svc.fits row = true) .dataError
    return { db with tasks := db.tasks.put id ⟨row, h⟩ }
  else .error .integrityError

def newUnits (id : TaskId) (count : ℤ) : List TaskUnit :=
  (List.range count.toNat).map fun i =>
    ⟨id, genericPlatformCode, "单元".toList ++ Nat.toDigits 10 (i + 1), .available⟩

/-- `create_task`; `id` is the server's new id. -/
def TaskService.createTask (svc : TaskService) (db : Db) (actor : Actor) (id : TaskId)
    (command : CreateTask) : Answer (TaskRow × Db) := do
  ensure (isStaff actor.role = true) .roleDenied
  let title ← requiredText .invalidTitle (some 255) command.title
  let description ← requiredText .invalidDescription none command.description
  let baseRewardPoints ← checkReward command.baseRewardPoints
  let durationMinutes ← checkIfGiven checkDuration command.durationMinutes
  let claimCutoffMinutes ← checkCutoff command.claimCutoffMinutes
  let maxFileSizeBytes ← svc.validateSizeCap command.maxFileSizeBytes
  let submissionSchema ← checkIfGiven checkSchema command.submissionSchema
  let submissionSchemaVersion ← checkIfGiven checkSchemaVersion command.submissionSchemaVersion
  let targetCount ← checkIfGiven checkTargetCount command.targetCount
  let taskType ← memberOr taskTypeMembers command.taskType
  let rarity ← memberOr taskRarityMembers command.rarity
  let deadlineMode ← memberOr deadlineModeMembers command.deadlineMode
  let fixedDeadlineAt ← checkIfGiven utc command.fixedDeadlineAt
  let allowedFileTypes ← normalizeCodes svc.upper supportedFileTypes command.allowedFileTypes
  let notificationChannels ←
    normalizeCodes svc.upper supportedNotificationChannels command.notificationChannels
  ensure (db.tasks.get id = none) .integrityError
  let row : TaskRow := {
    ownerTeacherId := actor.userId
    title, description, taskType, rarity, baseRewardPoints
    status := .draft
    deadlineMode, fixedDeadlineAt, durationMinutes
    gracePeriodMinutes := defaultGracePeriodMinutes
    claimCutoffMinutes, submissionSchema, submissionSchemaVersion, allowedFileTypes
    maxFileSizeBytes
    notify24h := command.notify24h
    notify4h := command.notify4h
    notificationChannels
    publishedAt := none
    closedAt := none }
  let db₁ ← svc.store db id row
  return (row, { db₁ with units := db₁.units ++ targetCount.elim [] (newUnits id) })

section Access

def lockedTask (db : Db) (id : TaskId) : Answer StoredTask :=
  orRefuse (.taskNotFound id) (db.tasks.get id)

def TaskRow.OwnedBy (row : TaskRow) (actor : Actor) : Prop :=
  actor.userId = row.ownerTeacherId ∨ isAdmin actor.role = true

instance (row : TaskRow) (actor : Actor) : Decidable (row.OwnedBy actor) :=
  inferInstanceAs (Decidable (_ ∨ _))

def requireOwnerOrAdmin (row : TaskRow) (actor : Actor) : Answer Unit :=
  ensure (row.OwnedBy actor) .notOwner

def requireTransition (row : TaskRow) (target : TaskStatus) : Answer Unit :=
  ensure (target ∈ allowedTaskTransitions row.status) (.illegalTransition row.status target)

end Access

section Edit

/-- The edit rule: which of the given fields the status freezes. -/
def requireEditable (row : TaskRow) (command : UpdateTask) : Answer Unit :=
  match row.status with
  | .closed | .archived =>
    ensure (command.provided = []) (.immutableFields (sorted command.provided) row.status)
  | .published | .paused =>
    ensure (command.contractProvided = [])
      (.immutableFields (sorted command.contractProvided) row.status)
  | .draft => return ()

def TaskService.edited (svc : TaskService) (row : TaskRow) (c : UpdateTask) : Answer TaskRow := do
  let title ← editField row.title (requiredText .invalidTitle (some 255)) c.title
  let description ← editField row.description (requiredText .invalidDescription none) c.description
  let notificationChannels ← editField row.notificationChannels
    (normalizeCodes svc.upper supportedNotificationChannels) c.notificationChannels
  let baseRewardPoints ← editField row.baseRewardPoints checkReward c.baseRewardPoints
  let deadlineMode ← editField row.deadlineMode (memberOr deadlineModeMembers) c.deadlineMode
  let fixedDeadlineAt ← editNullable row.fixedDeadlineAt utc c.fixedDeadlineAt
  let durationMinutes ← editNullable row.durationMinutes checkDuration c.durationMinutes
  let claimCutoffMinutes ← editField row.claimCutoffMinutes checkCutoff c.claimCutoffMinutes
  let submissionSchema ← editNullable row.submissionSchema checkSchema c.submissionSchema
  let submissionSchemaVersion ←
    editNullable row.submissionSchemaVersion checkSchemaVersion c.submissionSchemaVersion
  let allowedFileTypes ← editField row.allowedFileTypes
    (normalizeCodes svc.upper supportedFileTypes) c.allowedFileTypes
  let maxFileSizeBytes ← editField row.maxFileSizeBytes svc.validateSizeCap c.maxFileSizeBytes
  return { row with
    title, description, notificationChannels, baseRewardPoints, deadlineMode, fixedDeadlineAt
    durationMinutes, claimCutoffMinutes, submissionSchema, submissionSchemaVersion
    allowedFileTypes, maxFileSizeBytes
    notify24h := c.notify24h.getD row.notify24h
    notify4h := c.notify4h.getD row.notify4h }

/-- `update_task`. A frozen task takes an empty edit and stays as it is. -/
def TaskService.updateTask (svc : TaskService) (db : Db) (actor : Actor) (id : TaskId)
    (command : UpdateTask) : Answer (TaskRow × Db) := do
  let task ← lockedTask db id
  requireOwnerOrAdmin task.1 actor
  requireEditable task.1 command
  if task.1.status = .closed ∨ task.1.status = .archived then return (task.1, db)
  else
    let row ← svc.edited task.1 command
    let db₁ ← svc.store db id row
    return (row, db₁)

end Edit

section Publish

def minutes (n : ℤ) : Duration := n * 60000000

def validateDeadline (row : TaskRow) (now : Instant) : Answer Unit :=
  match row.deadlineMode with
  | .fixed => do
    let deadline ← orRefuse .missingFixedDeadline row.fixedDeadlineAt
    ensure (now < deadline) .pastDeadline
    ensure (now + minutes row.claimCutoffMinutes ≤ deadline)
      (.cutoffReached row.claimCutoffMinutes)
  | .relative =>
    match row.durationMinutes with
    | none => .error .invalidDuration
    | some m => ensure (0 < m) .invalidDuration

def TaskRow.documents (row : TaskRow) : List Text :=
  row.allowedFileTypes.filter (· ∈ documentFileTypeCodes)

def TaskRow.structured (row : TaskRow) : List Text :=
  row.allowedFileTypes.filter (· ∈ structuredFileTypeCodes)

def TaskRow.hasSchema (row : TaskRow) : Bool := row.submissionSchema.any fun raw => !raw.isEmpty

/-- The file policy part of the publish gate, with the schema of a document task. -/
def validateFilePolicy (row : TaskRow) : Answer Unit := do
  ensure (¬ (row.documents ≠ [] ∧ row.hasSchema = true)) .documentSchemaForbidden
  ensure (row.allowedFileTypes ≠ []) .invalidFilePolicy
  let unsupported := row.allowedFileTypes.filter (· ∉ supportedFileTypes)
  ensure (unsupported = []) (.unsupportedCodes (sorted unsupported))
  ensure (¬ (row.structured ≠ [] ∧ row.documents ≠ []))
    (.mixedFileFamily (sorted row.structured) (sorted row.documents))
  ensure (¬ (row.documents ≠ [] ∧ row.documents = [])) .invalidFilePolicy

def TaskService.validatePublishable (svc : TaskService) (row : TaskRow) (now : Instant) :
    Answer Unit := do
  ensure (0 < row.baseRewardPoints) .invalidReward
  validateDeadline row now
  validateFilePolicy row
  let _ ← svc.validateSizeCap row.maxFileSizeBytes

def Db.unitCount (db : Db) (id : TaskId) : ℕ := db.units.countP fun unit => unit.taskId = id

/-- A task with another status and its two timestamps; no CHECK looks at them. -/
def StoredTask.moved (task : StoredTask) (status : TaskStatus)
    (publishedAt closedAt : Option Instant) : StoredTask :=
  ⟨{ task.1 with status, publishedAt, closedAt }, task.2⟩

/-- The task in its new status. The first publish alone sets `published_at`. -/
def StoredTask.arrived (task : StoredTask) (now : Instant) : TaskStatus → StoredTask
  | .published => task.moved .published (task.1.publishedAt.or (some now)) task.1.closedAt
  | .closed => task.moved .closed task.1.publishedAt (some now)
  | target => task.moved target task.1.publishedAt task.1.closedAt

/-- What `_transition` asks for its target: the gate, and a unit for a first publish. -/
def TaskService.requireEntry (svc : TaskService) (db : Db) (now : Instant) (id : TaskId)
    (row : TaskRow) (target : TaskStatus) : Answer Unit :=
  if target = .published then do
    svc.validatePublishable row now
    ensure (row.status = .draft → 0 < db.unitCount id) .unitsRequired
  else return ()

def TaskService.transition (svc : TaskService) (db : Db) (now : Instant) (actor : Actor)
    (id : TaskId) (target : TaskStatus) : Answer (TaskRow × Db) := do
  let task ← lockedTask db id
  requireOwnerOrAdmin task.1 actor
  requireTransition task.1 target
  svc.requireEntry db now id task.1 target
  let action ← orRefuse .keyError (transitionAuditActions task.1.status target)
  let moved := task.arrived now target
  return (moved.1, { db with
    tasks := db.tasks.put id moved
    audit := db.audit ++ [⟨actor, action, id, task.1.status, target⟩] })

def TaskRow.isClaimable (row : TaskRow) (now : Instant) : Bool :=
  row.status = .published && (row.deadlineMode = .relative ||
    row.fixedDeadlineAt.any fun deadline => now + minutes row.claimCutoffMinutes ≤ deadline)

structure PublishResult where
  taskId : TaskId
  status : TaskStatus
  publishedAt : Instant
  claimable : Bool

/-- `publish_task`. The answer is put together at an instant after the commit. -/
def TaskService.publishTask (svc : TaskService) (db : Db) (now after : Instant) (actor : Actor)
    (id : TaskId) : Answer (PublishResult × Db) := do
  let (row, db') ← svc.transition db now actor id .published
  return (⟨id, row.status, row.publishedAt.getD after, row.isClaimable after⟩, db')

def TaskService.pauseTask (svc : TaskService) (db : Db) (now : Instant) (actor : Actor)
    (id : TaskId) : Answer (TaskRow × Db) := svc.transition db now actor id .paused

def TaskService.resumeTask (svc : TaskService) (db : Db) (now : Instant) (actor : Actor)
    (id : TaskId) : Answer (TaskRow × Db) := svc.transition db now actor id .published

def TaskService.closeTask (svc : TaskService) (db : Db) (now : Instant) (actor : Actor)
    (id : TaskId) : Answer (TaskRow × Db) := svc.transition db now actor id .closed

def TaskService.archiveTask (svc : TaskService) (db : Db) (now : Instant) (actor : Actor)
    (id : TaskId) : Answer (TaskRow × Db) := svc.transition db now actor id .archived

end Publish

end CampusQuest.Tasks
