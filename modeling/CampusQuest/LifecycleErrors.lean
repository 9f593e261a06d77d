import CampusQuest.Guards
import CampusQuest.LifecycleRows
import CampusQuest.PointErrors

/-!
The errors of the task and submission services. A broken invariant, a misconfigured row or
a database violation that is not translated is answered as an internal error.
-/

namespace CampusQuest.Lifecycle

inductive NotClaimableReason
  | taskNotPublished
  | invalidFixedDeadline
  deriving DecidableEq, Repr

inductive LifecycleError
  | userNotFound (userId : UserId)
  | claimerNotStudent (userId : UserId) (role : Role)
  | uploaderNotStudent (userId : UserId) (role : Role)
  | accountNotActive (userId : UserId)
  | taskNotFound (taskId : TaskId)
  | taskNotClaimable (status : TaskStatus) (reason : NotClaimableReason)
  | claimCutoffReached (fixedDeadlineAt : Instant) (claimCutoffMinutes : ℤ)
  | assignmentLimitReached (limit : ℕ)
  | activeClaimExists (taskId : TaskId)
  | noAssignmentAvailable (taskId : TaskId)
  | claimNotFound (claimId : ClaimId)
  | claimNotOwned (claimId : ClaimId) (userId : UserId)
  | claimNotAbandonable (status : ClaimStatus)
  | abandonLimitReached (limit : ℕ) (windowStartAt windowEndAt : Instant)
  | uploadIntentNotFound (intentId : IntentId)
  | claimNotSubmittable (status : ClaimStatus)
  | fileTypeNotAllowed (declaredType : FileType) (allowed : List FileType)
  | fileTooLarge (size limit : ℤ)
  | submissionWindowClosed (status : ClaimStatus) (graceDeadlineAt : Instant)
      (revisionDeadlineAt : Option Instant)
  | uploadObjectMissing (intentId : IntentId)
  | uploadSizeMismatch (declaredSize actualSize : ℤ)
  | uploadTypeMismatch (declaredType : FileType) (actual expected : String)
  | submissionNotFound (submissionId : SubmissionId)
  | cleanupClaimConflict (claimId : ClaimId) (submissionIds : Finset SubmissionId)
  | windowClosed (submittedAt graceDeadlineAt : Instant)
  | rewardWindowInconsistent (submissionId : SubmissionId)
      (submittedAt graceDeadlineAt : Instant)
  | submissionNotValidated (submissionId : SubmissionId) (status : ValidationStatus)
  | reviewerPermissionDenied (taskId : TaskId) (actorId : UserId)
  | staleSubmissionVersion (submissionId : SubmissionId)
      (latestSubmissionId : Option SubmissionId)
  | claimNotReviewable (claimId : ClaimId) (status : ClaimStatus)
  | lockNotInvalidatable (submissionId : SubmissionId) (status : RewardLockStatus)
  | invalidationReasonRequired (submissionId : SubmissionId)
  | lockNotProvisional (claimId : ClaimId) (status : RewardLockStatus)
  | points (e : Points.PointsError)
  | misconfiguredTask (taskId : TaskId)
  | missingReport (submissionId : SubmissionId)
  | assertionFailed
  | integrityError
  deriving DecidableEq

namespace LifecycleError

def code : LifecycleError → ErrorCode
  | userNotFound _ | taskNotFound _ | claimNotFound _ | uploadIntentNotFound _
  | uploadObjectMissing _ | submissionNotFound _ => .notFound
  | claimerNotStudent _ _ | uploaderNotStudent _ _ | claimNotOwned _ _
  | reviewerPermissionDenied _ _ => .permissionDenied
  | accountNotActive _ => .accountNotActive
  | taskNotClaimable _ _ => .taskNotClaimable
  | claimCutoffReached _ _ => .claimCutoffReached
  | assignmentLimitReached _ => .assignmentLimitReached
  | activeClaimExists _ => .taskActiveClaimExists
  | noAssignmentAvailable _ => .noAssignmentAvailable
  | claimNotAbandonable _ => .claimNotAbandonable
  | abandonLimitReached _ _ _ => .abandonLimitReached
  | claimNotSubmittable _ => .claimNotSubmittable
  | fileTypeNotAllowed _ _ | uploadTypeMismatch _ _ _ => .fileTypeNotAllowed
  | fileTooLarge _ _ | uploadSizeMismatch _ _ => .fileTooLarge
  | submissionWindowClosed _ _ _ | windowClosed _ _
  | rewardWindowInconsistent _ _ _ => .submissionWindowClosed
  | cleanupClaimConflict _ _ => .conflict
  | submissionNotValidated _ _ | staleSubmissionVersion _ _ | claimNotReviewable _ _
  | lockNotInvalidatable _ _ | invalidationReasonRequired _
  | lockNotProvisional _ _ => .validationError
  | points e => e.code
  | misconfiguredTask _ | missingReport _ | assertionFailed | integrityError => .internalError

def statusCode : LifecycleError → ℕ
  | userNotFound _ | taskNotFound _ | claimNotFound _ | uploadIntentNotFound _
  | uploadObjectMissing _ | submissionNotFound _ => 404
  | claimerNotStudent _ _ | uploaderNotStudent _ _ | claimNotOwned _ _
  | reviewerPermissionDenied _ _ | accountNotActive _ => 403
  | taskNotClaimable _ _ | claimCutoffReached _ _ | assignmentLimitReached _
  | activeClaimExists _ | noAssignmentAvailable _ | claimNotAbandonable _
  | abandonLimitReached _ _ _ | claimNotSubmittable _ | submissionWindowClosed _ _ _
  | cleanupClaimConflict _ _ | submissionNotValidated _ _ | staleSubmissionVersion _ _
  | claimNotReviewable _ _ | lockNotInvalidatable _ _ | lockNotProvisional _ _ => 409
  | fileTypeNotAllowed _ _ | uploadTypeMismatch _ _ _ | fileTooLarge _ _
  | uploadSizeMismatch _ _ | windowClosed _ _ | invalidationReasonRequired _ => 400
  | points e => e.statusCode
  | rewardWindowInconsistent _ _ _ | misconfiguredTask _ | missingReport _
  | assertionFailed | integrityError => 500

def message : LifecycleError → String
  | userNotFound _ => "用户不存在"
  | claimerNotStudent _ _ => "仅学生账号可领取任务"
  | uploaderNotStudent _ _ => "仅学生账号可提交作业"
  | accountNotActive _ => "账号当前状态不允许执行该操作"
  | taskNotFound _ => "任务不存在"
  | taskNotClaimable _ _ => "任务当前不可领取"
  | claimCutoffReached _ _ => "距任务截止时间已不足，已停止新领取"
  | assignmentLimitReached _ => "当前进行中的任务已达到上限"
  | activeClaimExists _ => "该任务已有进行中的领取，不能重复领取"
  | noAssignmentAvailable _ => "该任务已无可领取的数据单元"
  | claimNotFound _ => "领取记录不存在"
  | claimNotOwned _ _ => "该领取不属于当前用户"
  | claimNotAbandonable _ => "该领取当前状态不可放弃"
  | abandonLimitReached _ _ _ => "今日放弃次数已达到上限"
  | uploadIntentNotFound _ => "上传凭证不存在或已失效"
  | claimNotSubmittable _ => "该领取当前状态不可提交"
  | fileTypeNotAllowed _ _ => "该任务不接受此文件类型"
  | fileTooLarge _ _ => "文件大小超出限制"
  | submissionWindowClosed _ _ _ => "提交时间窗口已关闭"
  | uploadObjectMissing _ => "上传对象不存在，请完成上传后重试"
  | uploadSizeMismatch _ _ => "上传文件实际大小与声明不一致"
  | uploadTypeMismatch _ _ _ => "上传文件内容类型与声明不一致"
  | submissionNotFound _ => "提交记录不存在"
  | cleanupClaimConflict _ _ => "文件清理正在进行，请稍后重试"
  | windowClosed _ _ => "提交窗口已关闭"
  | rewardWindowInconsistent _ _ _ => "机器校验通过的提交落在提交窗口之外（数据异常）"
  | submissionNotValidated _ _ => "提交尚未通过机器校验"
  | reviewerPermissionDenied _ _ => "只有任务所有者、拥有审核权限的协作者或管理员可以审核提交"
  | staleSubmissionVersion _ _ => "只能审核当前最新版本的有效提交"
  | claimNotReviewable _ _ => "该认领已结束，无法再审核"
  | lockNotInvalidatable _ _ => "当前奖励锁状态不支持判无效操作"
  | invalidationReasonRequired _ => "判无效操作必须填写原因"
  | lockNotProvisional _ _ => "奖励锁尚未处于待确认状态，无法通过验收"
  | points e => e.message
  | misconfiguredTask _ | missingReport _ | assertionFailed | integrityError => "INTERNAL_ERROR"

end LifecycleError

/-- A service function reads the tables and answers, or refuses. What it answers with the
tables is what its transaction commits; a refusal is rolled back. -/
abbrev Answer (α : Type) := Except LifecycleError α

end CampusQuest.Lifecycle
