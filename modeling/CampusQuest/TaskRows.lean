import CampusQuest.SubmissionSchema
import CampusQuest.Tables

/-!
Tasks as their teachers edit them: the commands, the row with its CHECK constraints and the
typed refusals. File types and channels are the code words that the columns hold.
-/

namespace CampusQuest.Tasks

open Tables
open Lifecycle (FileType TaskStatus DeadlineMode AssignmentAvailability)

inductive TaskType
  | dataCrawl
  deriving DecidableEq, Repr

inductive TaskRarity
  | normal
  | rare
  | epic
  | legendary
  deriving DecidableEq, Repr

def taskTypeMembers : List (Text × TaskType) := [("DATA_CRAWL".toList, .dataCrawl)]

def taskRarityMembers : List (Text × TaskRarity) :=
  [("NORMAL".toList, .normal), ("RARE".toList, .rare), ("EPIC".toList, .epic),
    ("LEGENDARY".toList, .legendary)]

def deadlineModeMembers : List (Text × DeadlineMode) :=
  [("FIXED".toList, .fixed), ("RELATIVE".toList, .relative)]

def fileTypeCode : FileType → Text
  | .csv => "CSV".toList
  | .xlsx => "XLSX".toList
  | .sqlite => "SQLITE".toList
  | .docx => "DOCX".toList
  | .pdf => "PDF".toList

def structuredFileTypeCodes : List Text := ["CSV".toList, "XLSX".toList, "SQLITE".toList]

def documentFileTypeCodes : List Text := ["DOCX".toList, "PDF".toList]

def supportedFileTypes : List Text := structuredFileTypeCodes ++ documentFileTypeCodes

def supportedNotificationChannels : List Text :=
  ["SMS".toList, "EMAIL".toList, "IN_APP".toList]

def defaultGracePeriodMinutes : ℤ := 1440

def maxTargetCount : ℤ := 200

def genericPlatformCode : Text := "generic".toList

def allowedTaskTransitions : TaskStatus → List TaskStatus
  | .draft => [.published]
  | .published => [.paused, .closed]
  | .paused => [.published, .closed]
  | .closed => [.archived]
  | .archived => []

inductive TaskAudit
  | published
  | paused
  | resumed
  | closed
  | archived
  deriving DecidableEq, Repr

def transitionAuditActions : TaskStatus → TaskStatus → Option TaskAudit
  | .draft, .published => some .published
  | .published, .paused => some .paused
  | .paused, .published => some .resumed
  | .published, .closed => some .closed
  | .paused, .closed => some .closed
  | .closed, .archived => some .archived
  | _, _ => none

/-- Every edge of the table has its audit action. -/
theorem transitionAuditActions_isSome {before target : TaskStatus}
    (h : target ∈ allowedTaskTransitions before) :
    (transitionAuditActions before target).isSome = true := by
  cases before <;> cases target <;> simp_all [allowedTaskTransitions, transitionAuditActions]

inductive Datetime
  | naive (wall : ℤ)
  | aware (instant : Instant)
  deriving DecidableEq

structure CreateTask where
  title : Text
  description : Text
  baseRewardPoints : ℤ
  deadlineMode : Text
  allowedFileTypes : List Text
  maxFileSizeBytes : ℤ
  taskType : Text
  rarity : Text
  fixedDeadlineAt : Option Datetime
  durationMinutes : Option ℤ
  claimCutoffMinutes : ℤ
  submissionSchema : Option (List (Text × Json))
  submissionSchemaVersion : Option ℤ
  targetCount : Option ℤ
  notify24h : Bool
  notify4h : Bool
  notificationChannels : List Text

structure UpdateTask where
  title : Option Text
  description : Option Text
  notify24h : Option Bool
  notify4h : Option Bool
  notificationChannels : Option (List Text)
  baseRewardPoints : Option ℤ
  deadlineMode : Option Text
  fixedDeadlineAt : Option Datetime
  durationMinutes : Option ℤ
  claimCutoffMinutes : Option ℤ
  submissionSchema : Option (List (Text × Json))
  submissionSchemaVersion : Option ℤ
  allowedFileTypes : Option (List Text)
  maxFileSizeBytes : Option ℤ

/-- The fields of `UpdateTask` that are frozen from the first publish on, as far as the command
gives them. -/
def UpdateTask.contractProvided (c : UpdateTask) : List Text :=
  [("base_reward_points", c.baseRewardPoints.isSome), ("deadline_mode", c.deadlineMode.isSome),
    ("fixed_deadline_at", c.fixedDeadlineAt.isSome),
    ("duration_minutes", c.durationMinutes.isSome),
    ("claim_cutoff_minutes", c.claimCutoffMinutes.isSome),
    ("submission_schema", c.submissionSchema.isSome),
    ("submission_schema_version", c.submissionSchemaVersion.isSome),
    ("allowed_file_types", c.allowedFileTypes.isSome),
    ("max_file_size_bytes", c.maxFileSizeBytes.isSome)].filterMap fun field =>
      if field.2 then some field.1.toList else none

def UpdateTask.provided (c : UpdateTask) : List Text :=
  [("title", c.title.isSome), ("description", c.description.isSome),
    ("notify_24h", c.notify24h.isSome), ("notify_4h", c.notify4h.isSome),
    ("notification_channels", c.notificationChannels.isSome)].filterMap (fun field =>
      if field.2 then some field.1.toList else none) ++ c.contractProvided

structure TaskRow where
  ownerTeacherId : UserId
  title : Text
  description : Text
  taskType : TaskType
  rarity : TaskRarity
  baseRewardPoints : ℤ
  status : TaskStatus
  deadlineMode : DeadlineMode
  fixedDeadlineAt : Option Instant
  durationMinutes : Option ℤ
  gracePeriodMinutes : ℤ
  claimCutoffMinutes : ℤ
  submissionSchema : Option (List (Text × Json))
  submissionSchemaVersion : Option ℤ
  allowedFileTypes : List Text
  maxFileSizeBytes : ℤ
  notify24h : Bool
  notify4h : Bool
  notificationChannels : List Text
  publishedAt : Option Instant
  closedAt : Option Instant

structure Contract where
  baseRewardPoints : ℤ
  deadlineMode : DeadlineMode
  fixedDeadlineAt : Option Instant
  durationMinutes : Option ℤ
  claimCutoffMinutes : ℤ
  submissionSchema : Option (List (Text × Json))
  submissionSchemaVersion : Option ℤ
  allowedFileTypes : List Text
  maxFileSizeBytes : ℤ

def TaskRow.contract (row : TaskRow) : Contract where
  baseRewardPoints := row.baseRewardPoints
  deadlineMode := row.deadlineMode
  fixedDeadlineAt := row.fixedDeadlineAt
  durationMinutes := row.durationMinutes
  claimCutoffMinutes := row.claimCutoffMinutes
  submissionSchema := row.submissionSchema
  submissionSchemaVersion := row.submissionSchemaVersion
  allowedFileTypes := row.allowedFileTypes
  maxFileSizeBytes := row.maxFileSizeBytes

def TaskRow.Checks (row : TaskRow) : Prop :=
  0 < row.baseRewardPoints ∧ (∀ m ∈ row.durationMinutes, 0 < m) ∧
    row.gracePeriodMinutes = defaultGracePeriodMinutes ∧ 0 ≤ row.claimCutoffMinutes ∧
    (∀ code ∈ row.allowedFileTypes, code ∈ supportedFileTypes) ∧ 0 < row.maxFileSizeBytes ∧
    ∀ code ∈ row.notificationChannels, code ∈ supportedNotificationChannels

instance (row : TaskRow) : Decidable row.Checks := inferInstanceAs (Decidable (_ ∧ _))

abbrev StoredTask := { row : TaskRow // row.Checks }

structure TaskUnit where
  taskId : TaskId
  platform : Text
  keyword : Text
  availabilityStatus : AssignmentAvailability
  deriving DecidableEq

structure AuditRow where
  actor : Actor
  action : TaskAudit
  targetId : TaskId
  before : TaskStatus
  after : TaskStatus
  deriving DecidableEq

structure Db where
  tasks : Table TaskId StoredTask
  units : List TaskUnit
  audit : List AuditRow

inductive TaskError
  | taskNotFound (id : TaskId)
  | illegalTransition (current target : TaskStatus)
  | immutableFields (fields : List Text) (status : TaskStatus)
  | roleDenied
  | notOwner
  | invalidTitle
  | invalidDescription
  | invalidReward
  | invalidDuration
  | unsupportedCutoff
  | invalidSizeCap
  | invalidSchema
  | invalidTargetCount
  | unsupportedValue (value : Text)
  | unsupportedCodes (codes : List Text)
  | naiveDeadline
  | missingFixedDeadline
  | pastDeadline
  | cutoffReached (claimCutoffMinutes : ℤ)
  | documentSchemaForbidden
  | invalidFilePolicy
  | mixedFileFamily (structured documents : List Text)
  | unitsRequired
  | integrityError
  | dataError
  | keyError
  deriving DecidableEq

namespace TaskError

def code : TaskError → String
  | taskNotFound _ => "NOT_FOUND"
  | roleDenied | notOwner => "PERMISSION_DENIED"
  | cutoffReached _ => "TASK_NOT_CLAIMABLE"
  | unitsRequired => "TASK_UNITS_REQUIRED"
  | integrityError | dataError | keyError => "INTERNAL_ERROR"
  | _ => "VALIDATION_ERROR"

def statusCode : TaskError → ℕ
  | taskNotFound _ => 404
  | roleDenied | notOwner => 403
  | cutoffReached _ | unitsRequired => 409
  | integrityError | dataError | keyError => 500
  | _ => 400

def message : TaskError → String
  | taskNotFound _ => "任务不存在"
  | illegalTransition _ _ => "当前任务状态不允许该操作"
  | immutableFields _ _ => "该状态下任务字段不可修改"
  | roleDenied => "当前角色无权执行该操作"
  | notOwner => "只有任务所有者或管理员可以执行该操作"
  | invalidTitle => "任务标题不能为空，且不超过 255 个字符"
  | invalidDescription => "任务描述不能为空"
  | invalidReward => "任务奖励积分必须大于 0"
  | invalidDuration => "RELATIVE 模式必须设置正的时长（分钟）"
  | unsupportedCutoff | unsupportedValue _ | unsupportedCodes _ => "存在不支持的取值"
  | invalidSizeCap => "单文件大小上限必须大于 0 且不超过平台上限"
  | invalidSchema => "发布前必须配置提交校验 schema 及其版本"
  | invalidTargetCount => "完成人数必须在 1–200 之间"
  | naiveDeadline => "截止时间必须携带时区信息"
  | missingFixedDeadline => "FIXED 模式必须设置固定截止时间"
  | pastDeadline => "固定截止时间必须晚于当前时间"
  | cutoffReached _ =>
    "距固定截止时间已不足领取窗口，发布后将立即不可领取；请延后截止时间或调小领取窗口"
  | documentSchemaForbidden =>
    "文档型任务（DOCX/PDF）不能配置提交校验 schema——机器校验只做完整性检查"
  | invalidFilePolicy => "发布前必须至少配置一种允许的文件类型"
  | mixedFileFamily _ _ =>
    "单任务的允许文件类型不能同时包含结构化格式（CSV/XLSX/SQLite）与文档格式（DOCX/PDF）"
  | unitsRequired => "请先设置完成人数（任务单元）再发布"
  | integrityError | dataError | keyError => "INTERNAL_ERROR"

end TaskError

abbrev Answer (α : Type) := Except TaskError α

end CampusQuest.Tasks
