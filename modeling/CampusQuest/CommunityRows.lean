import CampusQuest.Guards
import CampusQuest.LifecycleRows

/-!
Rows of the community module and the gates that its writers share. A comment keeps the
account that wrote it whatever it shows; the columns of its deletion are three, and written
together. Of the accounts and the tasks only the columns are here that the gates read.
-/

namespace CampusQuest.Community

open Guards Tables
open Lifecycle (CollaboratorPermission TaskStatus UserStatus)

abbrev CommentId := ℕ
abbrev ReportId := ℕ

/-- The columns of `users` behind the identity seam. -/
structure Participant where
  role : Role
  status : UserStatus
  nickname : Text
  deriving DecidableEq

structure TaskFace where
  ownerTeacherId : UserId
  status : TaskStatus
  deriving DecidableEq

structure Comment where
  taskId : TaskId
  userId : UserId
  parentId : Option CommentId
  content : Text
  isAnonymous : Bool
  createdAt : Instant
  updatedAt : Instant
  deletedAt : Option Instant
  deletedBy : Option UserId
  deleteReason : Option Text
  isHardHidden : Bool
  deriving DecidableEq

inductive ReportCategory
  | spam
  | harassment
  | privacy
  | other
  deriving DecidableEq, Repr

inductive ReportStatus
  | opened
  | handled
  | dismissed
  deriving DecidableEq, Repr

structure CommentReport where
  commentId : CommentId
  reporterUserId : UserId
  category : ReportCategory
  note : Option Text
  status : ReportStatus
  handledBy : Option UserId
  handledAt : Option Instant
  createdAt : Instant
  updatedAt : Instant
  deriving DecidableEq

structure Site where
  users : Table UserId Participant
  tasks : Table TaskId TaskFace
  collaborators : Table (TaskId × UserId) (List CollaboratorPermission)
  comments : Table CommentId Comment

inductive CommunityError
  | commenterNotFound (user : UserId)
  | notParticipant (user : UserId) (role : Role)
  | accountNotActive (user : UserId)
  | commentNotFound (id : CommentId)
  | commentDeleted (id : CommentId)
  | taskNotFound (id : TaskId)
  | emptyContent
  | contentTooLong (maxLength : ℕ)
  | parentNotFound (id : CommentId)
  | parentCrossTask (id : CommentId) (task : TaskId)
  | parentDeleted (id : CommentId)
  | ownerRequired (id : CommentId)
  | moderationReasonRequired
  | moderationDenied (task : TaskId)
  | adminRequired (id : CommentId)
  | invalidVoteValue (value : ℤ)
  | unknownEmoji (emoji : Text)
  | invalidCategory (category : Text)
  | noteTooLong (maxLength : ℕ)
  | viewDenied (task : TaskId)
  | closureDenied (task : TaskId)
  | dismissReasonRequired
  | reportNotFound (task : TaskId) (id : ReportId)
  | alreadyClosed (id : ReportId) (status : ReportStatus)
  deriving DecidableEq, Repr

namespace CommunityError

def code : CommunityError → ErrorCode
  | commenterNotFound _ | commentNotFound _ | taskNotFound _ | reportNotFound _ _ => .notFound
  | notParticipant _ _ | ownerRequired _ | moderationDenied _ | adminRequired _ | viewDenied _ |
    closureDenied _ => .permissionDenied
  | accountNotActive _ => .accountNotActive
  | _ => .validationError

def statusCode : CommunityError → ℕ
  | commenterNotFound _ | commentNotFound _ | taskNotFound _ | reportNotFound _ _ => 404
  | notParticipant _ _ | accountNotActive _ | ownerRequired _ | moderationDenied _ |
    adminRequired _ | viewDenied _ | closureDenied _ => 403
  | alreadyClosed _ _ => 409
  | _ => 400

def message : CommunityError → String
  | commenterNotFound _ => "用户不存在"
  | notParticipant _ _ => "仅学生或教师账号可参与社区互动"
  | accountNotActive _ => "账号当前状态不允许执行该操作"
  | commentNotFound _ => "评论不存在"
  | commentDeleted _ => "该评论已删除"
  | taskNotFound _ => "任务不存在"
  | emptyContent => "评论内容不能为空"
  | contentTooLong _ => "评论内容超过长度上限"
  | parentNotFound _ => "回复的评论不存在"
  | parentCrossTask _ _ => "只能回复同一任务下的评论"
  | parentDeleted _ => "该评论已删除，不能回复"
  | ownerRequired _ => "只能编辑或删除自己的评论"
  | moderationReasonRequired => "必须提供删除原因"
  | moderationDenied _ => "只有任务所有者或拥有社区治理权限的协作者可以删除该评论"
  | adminRequired _ => "只有管理员可以彻底隐藏评论"
  | invalidVoteValue _ => "投票取值只能是 -1、0 或 1"
  | unknownEmoji _ => "该表情不在允许的表情白名单内"
  | invalidCategory _ => "举报类别无效"
  | noteTooLong _ => "举报备注超过长度上限"
  | viewDenied _ => "只有任务所有者、拥有社区治理权限的协作者或管理员可以查看举报"
  | closureDenied _ => "只有任务所有者、拥有社区治理权限的协作者或管理员可以处理举报"
  | dismissReasonRequired => "必须填写驳回举报的理由"
  | reportNotFound _ _ => "举报不存在"
  | alreadyClosed _ _ => "举报已按另一结论处理，不能再次变更"

end CommunityError

abbrev Answer (α : Type) := Except CommunityError α

namespace Site

variable (s : Site)

/-- `require_community_writer`: the nickname of a student or teacher with an active account. -/
def requireCommunityWriter (user : UserId) : Answer Text := do
  let row ← orRefuse (.commenterNotFound user) (s.users.get user)
  ensure (row.role = .student ∨ row.role = .teacher) (.notParticipant user row.role)
  ensure (row.status = .active) (.accountNotActive user)
  .ok row.nickname

def requireVisibleTask (task : TaskId) : Answer Unit := do
  let row ← orRefuse (.taskNotFound task) (s.tasks.get task)
  ensure (row.status = .published) (.taskNotFound task)

def requireVisibleComment (id : CommentId) : Answer Comment := do
  let comment ← orRefuse (.commentNotFound id) (s.comments.get id)
  ensure (comment.deletedAt = none) (.commentDeleted id)
  s.requireVisibleTask comment.taskId
  .ok comment

/-- `require_task_moderation_site`: the owner of the task, a collaborator who may moderate and,
where the surface admits them, administrators. -/
def requireTaskModerationSite (actor : Actor) (task : TaskId) (admitAdmin : Bool)
    (denied : TaskId → CommunityError) : Answer Unit := do
  ensure (admitAdmin = true ∨ actor.role = .teacher) (denied task)
  let row ← orRefuse (.taskNotFound task) (s.tasks.get task)
  if admitAdmin = true ∧ isAdmin actor.role = true then .ok ()
  else do
    ensure (actor.role = .teacher) (denied task)
    if row.ownerTeacherId = actor.userId then .ok ()
    else
      ensure (.moderateCommunity ∈ (s.collaborators.get (task, actor.userId)).getD []) (denied task)

end Site

end CampusQuest.Community
