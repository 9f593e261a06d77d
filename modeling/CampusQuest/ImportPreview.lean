import CampusQuest.BulkStatements
import CampusQuest.Guards
import CampusQuest.TaskRows

/-!
The import of units into a task in two requests. The preview keeps the rows that are new to the
task and puts them behind a token in Redis, next to the database; the confirmation takes the
token out and inserts exactly these rows.
-/

namespace CampusQuest.Imports

open Guards Tables
open Lifecycle (CollaboratorPermission)
open Tasks (TaskUnit)

abbrev Token := ℕ

abbrev UnitId := ℕ

/-- A row that the preview shows as valid. -/
structure PreviewRow where
  rowNumber : ℤ
  platform : Text
  keyword : Text
  deriving DecidableEq

def PreviewRow.pair (row : PreviewRow) : Text × Text := (row.platform, row.keyword)

/-- The JSON value behind a token; only `store_preview` writes one. -/
structure StoredPreview where
  taskId : TaskId
  rows : List PreviewRow
  expiresAt : Instant
  deriving DecidableEq

structure ImportAudit where
  actor : Actor
  targetId : TaskId
  inserted : ℕ
  deriving DecidableEq

inductive ImportError
  | taskNotFound (id : TaskId)
  | denied
  | invalidPreviewToken
  | duplicateAssignments (conflicts : List (Text × Text))
  deriving DecidableEq

namespace ImportError

def code : ImportError → String
  | taskNotFound _ | invalidPreviewToken => "NOT_FOUND"
  | denied => "PERMISSION_DENIED"
  | duplicateAssignments _ => "VALIDATION_ERROR"

def statusCode : ImportError → ℕ
  | taskNotFound _ | invalidPreviewToken => 404
  | denied => 403
  | duplicateAssignments _ => 409

def message : ImportError → String
  | taskNotFound _ => "任务不存在"
  | denied =>
    "只有任务所有者、拥有 MANAGE_ASSIGNMENTS 权限的协作者或管理员可以导入 Assignment"
  | invalidPreviewToken => "导入预览不存在、已失效或已被确认"
  | duplicateAssignments conflicts =>
    if conflicts = [] then "部分组合已被并发导入，请重新预览后确认"
    else "部分组合已存在于该任务，请移除后重新预览"

end ImportError

abbrev Answer (α : Type) := Except ImportError α

/-- The columns of the UNIQUE constraint. -/
abbrev UnitKey := TaskId × Text × Text

def unitKey (unit : TaskUnit) : UnitKey := (unit.taskId, unit.platform, unit.keyword)

/-- The owners, collaborators and units of the tasks in the database, the previews in Redis, and
the clock. `minted` is a ghost: every preview that was ever stored. -/
structure ImportStore where
  tasks : Table TaskId UserId
  collaborators : Table (TaskId × UserId) (List CollaboratorPermission)
  units : Table UnitId TaskUnit
  audit : List ImportAudit
  previews : Table Token StoredPreview
  clock : Instant
  minted : Table Token StoredPreview

def pairLe (p q : Text × Text) : Bool := decide (p.1 < q.1 ∨ p.1 = q.1 ∧ p.2 ≤ q.2)

def orderedRows (rows : List PreviewRow) : List PreviewRow :=
  rows.mergeSort fun r r' => pairLe r.pair r'.pair

/-- `consume_preview`, once the key has been read and deleted. -/
def consumePreview (now : Instant) (task : TaskId) (raw : Option StoredPreview) :
    Answer (List PreviewRow) := do
  let stored ← orRefuse .invalidPreviewToken raw
  ensure (stored.taskId = task) .invalidPreviewToken
  ensure (now < stored.expiresAt) .invalidPreviewToken
  ensure (stored.rows ≠ []) .invalidPreviewToken
  .ok stored.rows

def PreviewRow.unit (row : PreviewRow) (task : TaskId) : TaskUnit where
  taskId := task
  platform := row.platform
  keyword := row.keyword
  availabilityStatus := .available

namespace ImportStore

variable (s : ImportStore)

def requireImportAccess (task : TaskId) (owner : UserId) (actor : Actor) : Answer Unit :=
  ensure (actor.userId = owner ∨ isAdmin actor.role = true ∨
    (s.collaborators.get (task, actor.userId)).any
      (fun permissions => permissions.contains .manageAssignments) = true) .denied

/-- The task and the access to it, which both requests check first. -/
def requireTask (actor : Actor) (task : TaskId) : Answer Unit := do
  let owner ← orRefuse (.taskNotFound task) (s.tasks.get task)
  s.requireImportAccess task owner actor

def Taken (key : UnitKey) : Prop := s.units.Any fun _ unit => unitKey unit = key

instance (key : UnitKey) : Decidable (s.Taken key) :=
  inferInstanceAs (Decidable (s.units.Any _))

def existingPairs (task : TaskId) (candidates : List (Text × Text)) : List (Text × Text) :=
  candidates.dedup.filter fun pair => s.Taken (task, pair)

def kept (task : TaskId) (parsed : List PreviewRow) : List PreviewRow :=
  parsed.filter fun row => row.pair ∉ s.existingPairs task (parsed.map PreviewRow.pair)

def checkConflicts (task : TaskId) (rows : List PreviewRow) : Answer (List PreviewRow) := do
  ensure (s.existingPairs task (rows.map PreviewRow.pair) = [])
    (.duplicateAssignments
      ((s.existingPairs task (rows.map PreviewRow.pair)).mergeSort pairLe))
  .ok (orderedRows rows)

def storePreview (token : Token) (preview : StoredPreview) : ImportStore :=
  { s with
    previews := s.previews.put token preview
    minted := s.minted.put token preview }

def dropPreview (token : Token) : ImportStore := { s with previews := s.previews.remove token }

def insertPreviewedRows (actor : Actor) (task : TaskId) (ids : List UnitId)
    (rows : List PreviewRow) : ImportStore :=
  { s with
    units := s.units.insertRows (ids.zip (rows.map fun row => row.unit task))
    audit := s.audit ++ [⟨actor, task, rows.length⟩] }

end ImportStore

section Answers

variable {s : ImportStore} {task : TaskId} {rows : List PreviewRow}

theorem consumePreview_ok {now : Instant} {raw : Option StoredPreview} :
    consumePreview now task raw = .ok rows ↔ ∃ stored, raw = some stored ∧
      stored.taskId = task ∧ now < stored.expiresAt ∧ stored.rows ≠ [] ∧ stored.rows = rows := by
  unfold consumePreview
  constructor
  · intro h
    obtain ⟨stored, hraw, h⟩ := orRefuse_bind_ok.mp h
    obtain ⟨htask, h⟩ := ensure_bind_ok.mp h
    obtain ⟨hlive, h⟩ := ensure_bind_ok.mp h
    obtain ⟨hrows, h⟩ := ensure_bind_ok.mp h
    exact ⟨stored, hraw, htask, hlive, hrows, Except.ok.inj h⟩
  · rintro ⟨stored, hraw, htask, hlive, hrows, rfl⟩
    exact orRefuse_bind_ok.mpr ⟨stored, hraw, ensure_bind_ok.mpr ⟨htask,
      ensure_bind_ok.mpr ⟨hlive, ensure_bind_ok.mpr ⟨hrows, rfl⟩⟩⟩⟩

theorem checkConflicts_ok {ordered : List PreviewRow}
    (h : s.checkConflicts task rows = .ok ordered) : ordered.Perm rows := by
  obtain ⟨_, h⟩ := ensure_bind_ok.mp h
  obtain rfl := Except.ok.inj h
  exact List.mergeSort_perm _ _

theorem requireTask_known {actor : Actor} (h : s.requireTask actor task = .ok ()) :
    s.tasks.get task ≠ none := by
  obtain ⟨owner, howner, _⟩ := orRefuse_bind_ok.mp h
  exact Option.ne_none_iff_exists'.mpr ⟨owner, howner⟩

end Answers

end CampusQuest.Imports
