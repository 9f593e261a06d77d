import CampusQuest.CommentListing
import CampusQuest.ReportQueue

/-!
The list of a task's reports for its moderators. A reported comment comes with the nickname of
its author or, anonymous, with a key that stands for its author within the task; the reporter
is named unless they are the author.
-/

namespace CampusQuest.Community

open Guards Tables

/-- The keyed digests behind the moderation key, and how an id reads. -/
structure KeyMaterial where
  secret : Text
  hmacDigest : Text → Text → Text
  hmacHexdigest : Text → Text → Text
  uuid : ℕ → Text

def moderationKeyLabel : Text := "campusquest:community:moderation-key:v1".toList

def deriveModerationKey (keys : KeyMaterial) (task : TaskId) (user : UserId) : Text :=
  (keys.hmacHexdigest (keys.hmacDigest keys.secret moderationKeyLabel)
    (keys.uuid task ++ ":".toList ++ keys.uuid user)).take 16

structure ModerationComment where
  id : CommentId
  taskId : TaskId
  parentId : Option CommentId
  content : Option Text
  isAnonymous : Bool
  authorDisplay : Text
  createdAt : Instant
  updatedAt : Instant
  edited : Bool
  deleted : Bool
  moderationKey : Option Text
  hardHidden : Bool
  deriving DecidableEq

def serializeModerationComment (keys : KeyMaterial) (id : CommentId) (comment : Comment)
    (authorNickname : Text) (edited : Bool) : ModerationComment where
  id := id
  taskId := comment.taskId
  parentId := comment.parentId
  content := some comment.content
  isAnonymous := comment.isAnonymous
  authorDisplay := if comment.isAnonymous then anonymousAuthorDisplay else authorNickname
  createdAt := comment.createdAt
  updatedAt := comment.updatedAt
  edited := edited
  deleted := comment.deletedAt.isSome
  moderationKey :=
    if comment.isAnonymous then some (deriveModerationKey keys comment.taskId comment.userId)
    else none
  hardHidden := comment.isHardHidden

structure CommentReportView where
  id : ReportId
  comment : ModerationComment
  category : ReportCategory
  note : Option Text
  status : ReportStatus
  reporterUserId : Option UserId
  reporterNickname : Option Text
  createdAt : Instant
  handledBy : Option UserId
  handledAt : Option Instant
  deriving DecidableEq

/-- A row of the queue. The reporter of their own comment stays unnamed. -/
def reportView (keys : KeyMaterial) (id : ReportId) (report : CommentReport) (comment : Comment)
    (nickname authorNickname : Text) (edited : Bool) : CommentReportView where
  id := id
  comment := serializeModerationComment keys report.commentId comment authorNickname edited
  category := report.category
  note := report.note
  status := report.status
  reporterUserId :=
    if report.reporterUserId = comment.userId then none else some report.reporterUserId
  reporterNickname := if report.reporterUserId = comment.userId then none else some nickname
  createdAt := report.createdAt
  handledBy := report.handledBy
  handledAt := report.handledAt

def Site.nicknameOf (s : Site) (user : UserId) : Text :=
  ((s.users.get user).map Participant.nickname).getD []

namespace QueueStore

variable (s : QueueStore) (keys : KeyMaterial) (revisions : List Revision)

def taskReports (task : TaskId) : List (ReportId × CommentReport) :=
  s.reports.scan (fun _ r => (s.site.comments.get r.commentId).any fun c => c.taskId = task)
    fun r => OrderDual.toDual r.createdAt

def joinedView (row : ReportId × CommentReport) : Option CommentReportView :=
  (s.site.comments.get row.2.commentId).bind fun comment =>
    (s.site.users.get row.2.reporterUserId).bind fun reporter =>
      (s.site.users.get comment.userId).map fun author =>
        reportView keys row.1 row.2 comment reporter.nickname author.nickname
          (editedFlag revisions row.2.commentId)

def listTaskReports (actor : Actor) (task : TaskId) (limit offset : ℕ) :
    Answer (List CommentReportView × ℕ) := do
  s.site.requireTaskModerationSite actor task true .viewDenied
  let total := (s.taskReports task).length
  if total = 0 ∨ total ≤ offset then .ok ([], total)
  else
    .ok ((((s.taskReports task).filterMap (s.joinedView keys revisions)).drop offset).take limit,
      total)

variable {s} {keys} {revisions} {task : TaskId}

theorem mem_taskReports {id : ReportId} {r : CommentReport} : (id, r) ∈ s.taskReports task ↔
    s.reports.get id = some r ∧ ∃ c, s.site.comments.get r.commentId = some c ∧ c.taskId = task := by
  unfold taskReports
  rw [Table.mem_scan]
  refine and_congr_right fun _ => ?_
  rw [Option.any_eq_true]
  simp

/-- The row of a report whose comment, reporter and author are known. -/
theorem joinedView_eq {id : ReportId} {r : CommentReport} {c : Comment}
    (hcomment : s.site.comments.get r.commentId = some c)
    (hreporter : s.site.users.get r.reporterUserId ≠ none)
    (hauthor : s.site.users.get c.userId ≠ none) :
    s.joinedView keys revisions (id, r) = some (reportView keys id r c
      (s.site.nicknameOf r.reporterUserId) (s.site.nicknameOf c.userId)
      (editedFlag revisions r.commentId)) := by
  obtain ⟨reporter, hreporter⟩ := Option.ne_none_iff_exists'.mp hreporter
  obtain ⟨author, hauthor⟩ := Option.ne_none_iff_exists'.mp hauthor
  unfold joinedView Site.nicknameOf
  dsimp only
  rw [hcomment, Option.bind_some, hreporter, Option.bind_some, hauthor]
  rfl

/-- An administrator may look into the queue of any task, and a page that is long enough is the
whole queue. -/
theorem listTaskReports_whole {actor : Actor} {limit : ℕ} (hadmin : isAdmin actor.role = true)
    (htask : s.site.tasks.get task ≠ none) (hlimit : (s.taskReports task).length ≤ limit) :
    s.listTaskReports keys revisions actor task limit 0 =
      .ok ((s.taskReports task).filterMap (s.joinedView keys revisions),
        (s.taskReports task).length) := by
  obtain ⟨row, hrow⟩ := Option.ne_none_iff_exists'.mp htask
  have hgate : s.site.requireTaskModerationSite actor task true .viewDenied = .ok () := by
    unfold Site.requireTaskModerationSite
    refine ensure_bind_ok.mpr ⟨Or.inl rfl, orRefuse_bind_ok.mpr ⟨row, hrow, ?_⟩⟩
    rw [if_pos ⟨rfl, hadmin⟩]
  refine bind_ok.mpr ⟨(), hgate, ?_⟩
  dsimp only
  split
  next hempty =>
    rw [Nat.le_zero, or_self] at hempty
    rw [List.length_eq_zero_iff.mp hempty]
    rfl
  next =>
    rw [List.drop_zero, List.take_of_length_le ((List.length_filterMap_le _ _).trans hlimit)]

end QueueStore

end CampusQuest.Community
