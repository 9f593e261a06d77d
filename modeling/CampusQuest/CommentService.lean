import CampusQuest.BulkStatements
import CampusQuest.CommentListing
import CampusQuest.TwoProcesses

/-!
The writes to the comments of a task. A reply reads its parent without a lock; an edit and the
deletions lock their comment; a hard hide locks its root, reads the replies below it level by
level without a lock and writes them all at its end. A write names only the columns that differ
from what the request has read.
-/

namespace CampusQuest.Community

open Forests Guards Locking Runs Tables

inductive CommentAuditAction
  | moderateDeleted
  | adminHardHidden
  deriving DecidableEq, Repr

/-- A row of the audit log about a comment; `affected` counts the comments that were hidden. -/
structure CommentAudit where
  actor : Actor
  action : CommentAuditAction
  targetId : CommentId
  reason : Text
  taskId : TaskId
  affected : ℕ
  deriving DecidableEq

structure CommentStore where
  site : Site
  revisions : List Revision
  audit : List CommentAudit

def keptControlCharacters : List Char := ['\n', '\t']

def isControl (c : Char) : Bool := c.toNat < 0x20 || (0x7f ≤ c.toNat && c.toNat ≤ 0x9f)

def stripControlCharacters (content : Text) : Text :=
  content.filter fun c => c ∈ keptControlCharacters || !isControl c

def normalizeCommentContent (content : Text) (maxLength : ℕ) : Answer Text := do
  ensure (strip (stripControlCharacters content) ≠ []) .emptyContent
  ensure ((strip (stripControlCharacters content)).length ≤ maxLength) (.contentTooLong maxLength)
  .ok (strip (stripControlCharacters content))

def requireModerationReason (reason : Text) : Answer Text := do
  ensure (strip reason ≠ []) .moderationReasonRequired
  .ok (strip reason)

def ownerDeleteReason : Text := "owner".toList

def ownReason (reason : Option Text) : Text :=
  if strippedReason reason = [] then ownerDeleteReason else strippedReason reason

def hardHiddenReason (reason : Text) : Text := "ADMIN_HARD_HIDE: ".toList ++ reason

structure Draft where
  userId : UserId
  taskId : TaskId
  parentId : Option CommentId
  content : Text
  isAnonymous : Bool
  deriving DecidableEq

def Draft.row (d : Draft) (now : Instant) : Comment where
  taskId := d.taskId
  userId := d.userId
  parentId := d.parentId
  content := d.content
  isAnonymous := d.isAnonymous
  createdAt := now
  updatedAt := now
  deletedAt := none
  deletedBy := none
  deleteReason := none
  isHardHidden := false

structure CreateComment where
  taskId : TaskId
  content : Text
  parentId : Option CommentId
  isAnonymous : Bool

def draft (s : Site) (maxLength : ℕ) (user : UserId) (command : CreateComment) : Answer Draft := do
  let _ ← s.requireCommunityWriter user
  let content ← normalizeCommentContent command.content maxLength
  .ok ⟨user, command.taskId, command.parentId, content, command.isAnonymous⟩

def Site.validateParent (s : Site) (task : TaskId) (parent : CommentId) : Answer Unit := do
  let row ← orRefuse (.parentNotFound parent) (s.comments.get parent)
  ensure (row.taskId = task) (.parentCrossTask parent task)
  ensure (row.deletedAt = none) (.parentDeleted parent)

def editCheck (maxLength : ℕ) (user : UserId) (id : CommentId) (row : Comment) (content : Text) :
    Answer Text := do
  ensure (row.userId = user) (.ownerRequired id)
  ensure (row.deletedAt = none) (.commentDeleted id)
  normalizeCommentContent content maxLength

def deleteCheck (user : UserId) (id : CommentId) (row : Comment) : Answer Unit := do
  ensure (row.userId = user) (.ownerRequired id)
  ensure (row.deletedAt = none) (.commentDeleted id)

/-- The checks of `moderate_delete_comment` after the moderator's standing. -/
def moderateCheck (id : CommentId) (row : Comment) (reason : Text) : Answer Text := do
  ensure (row.deletedAt = none) (.commentDeleted id)
  requireModerationReason reason

def Comment.softDelete (c : Comment) (now : Instant) (by' : UserId) (reason : Text)
    (stamp : Instant) : Comment :=
  { c with
    deletedAt := some now, deletedBy := some by', deleteReason := some reason
    updatedAt := stamp }

/-- The value of a column that is written only when it differs from what was read. -/
def written {α : Type} [DecidableEq α] (seen current new : α) : α :=
  if seen = new then current else new

def Comment.hardHide (c seen : Comment) (now : Instant) (by' : UserId) (reason : Text)
    (stamp : Instant) : Comment :=
  { c with
    isHardHidden := written seen.isHardHidden c.isHardHidden true
    deletedAt := written seen.deletedAt c.deletedAt (some now)
    deletedBy := written seen.deletedBy c.deletedBy (some by')
    deleteReason := written seen.deleteReason c.deleteReason (some reason)
    updatedAt := stamp }

namespace Site

variable (s : Site)

def withComments (comments : Table CommentId Comment) : Site := { s with comments := comments }

def repliesTo (frontier : List CommentId) : List (CommentId × Comment) :=
  s.comments.scan (fun _ c => c.parentId.any fun p => p ∈ frontier) fun c => c.createdAt

end Site

namespace CommentStore

variable (s : CommentStore)

def create (id : CommentId) (d : Draft) (now : Instant) : CommentStore :=
  { s with site := s.site.withComments (s.site.comments.put id (d.row now)) }

def edit (id : CommentId) (row : Comment) (content : Text) (now : Instant) : CommentStore :=
  { s with
    site := s.site.withComments (s.site.comments.put id
      { row with content := content, updatedAt := now })
    revisions := s.revisions ++ [⟨id, row.content, now⟩] }

def delete (id : CommentId) (row : Comment) (now : Instant) (by' : UserId) (reason : Text)
    (stamp : Instant) (audit : List CommentAudit) : CommentStore :=
  { s with
    site := s.site.withComments (s.site.comments.put id (row.softDelete now by' reason stamp))
    audit := s.audit ++ audit }

/-- The rows of a subtree are hidden, each against what had been read of it. -/
def hide (subtree : List (CommentId × Comment)) (now : Instant) (by' : UserId) (reason : Text)
    (stamp : Instant) (audit : List CommentAudit) : CommentStore :=
  { s with
    site := s.site.withComments (s.site.comments.mapRows fun id row =>
      match subtree.lookup id with
      | some seen => row.hardHide seen now by' (hardHiddenReason reason) stamp
      | none => row)
    audit := s.audit ++ audit }

def content (id : CommentId) : Option Text := (s.site.comments.get id).map Comment.content

def versions (id : CommentId) : List Text :=
  (s.revisions.filter fun r => r.commentId = id).map Revision.content ++ (s.content id).toList

end CommentStore

inductive Job
  | edit (user : UserId) (content : Text)
  | deleteOwn (user : UserId) (reason : Option Text)
  | moderate (actor : Actor) (reason : Text)
  | hide (actor : Actor) (reason : Text)

inductive CommentRequest
  | idle
  | drafted (d : Draft)
  | placed (d : Draft)
  | ready (d : Draft)
  | holding (job : Job) (id : CommentId) (row : Comment)
  | standing (actor : Actor) (reason : Text) (id : CommentId) (row : Comment)
  | collecting (actor : Actor) (reason : Text) (root : CommentId) (task : TaskId)
      (subtree : List (CommentId × Comment)) (frontier : List CommentId)
  | flushed (actor : Actor) (reason : Text) (root : CommentId) (task : TaskId)
      (subtree : List (CommentId × Comment))

open CommentRequest

/-- The rows that are read for update, and those that a hide has written. The share lock of an
insert on its parent is left out: it only keeps steps apart that are allowed here. -/
def CommentRequest.locks : CommentRequest → CommentId → Prop
  | holding _ id _, k | standing _ _ id _, k => k = id
  | collecting _ _ root _ _ _, k => k = root
  | flushed _ _ root _ subtree, k => k = root ∨ k ∈ subtree.map Prod.fst
  | _, _ => False

inductive CommentEvent
  | abandoned
  | refused (e : CommunityError)
  | created (id : CommentId) (parent : Option CommentId)
  | edited (id : CommentId)
  | deleted (id : CommentId)
  | hidden (root : CommentId)
  | elsewhere

def CommentEvent.writes : CommentEvent → Option CommentId
  | created id _ | edited id => some id
  | _ => none

def CommentStore.newContent (s' : CommentStore) (id : CommentId) (ev : CommentEvent) :
    Option Text :=
  if ev.writes = some id then s'.content id else none

/-- The reads. A hide ends its search with a level that has no replies, and takes the rows that
it writes before it commits. -/
inductive CommentRead (maxLength : ℕ) : CommentRequest → CommentStore → CommentRequest → Prop
  | draft {s : CommentStore} (user : UserId) (command : CreateComment) (d : Draft)
      (hdraft : Community.draft s.site maxLength user command = .ok d) :
      CommentRead maxLength idle s (drafted d)
  | place {s : CommentStore} (d : Draft) (hvisible : s.site.requireVisibleTask d.taskId = .ok ()) :
      CommentRead maxLength (drafted d) s (placed d)
  | root {s : CommentStore} (d : Draft) (hroot : d.parentId = none) :
      CommentRead maxLength (placed d) s (ready d)
  | parent {s : CommentStore} (d : Draft) (p : CommentId) (hparent : d.parentId = some p)
      (hvalid : s.site.validateParent d.taskId p = .ok ()) :
      CommentRead maxLength (placed d) s (ready d)
  | lock {s : CommentStore} (job : Job) (id : CommentId) (row : Comment)
      (hget : s.site.comments.get id = some row)
      (hadmin : ∀ actor reason, job = .hide actor reason → isAdmin actor.role = true) :
      CommentRead maxLength idle s (holding job id row)
  | stand {s : CommentStore} (actor : Actor) (reason : Text) (id : CommentId) (row : Comment)
      (hstand : s.site.requireTaskModerationSite actor row.taskId false .moderationDenied = .ok ()) :
      CommentRead maxLength (holding (.moderate actor reason) id row) s
        (standing actor reason id row)
  | collect {s : CommentStore} (actor : Actor) (reason stored : Text) (id : CommentId)
      (row : Comment) (hreason : requireModerationReason reason = .ok stored) :
      CommentRead maxLength (holding (.hide actor reason) id row) s
        (collecting actor stored id row.taskId [(id, row)] [id])
  | descend {s : CommentStore} (actor : Actor) (reason : Text) (root : CommentId) (task : TaskId)
      (subtree : List (CommentId × Comment)) (frontier : List CommentId) (hmore : frontier ≠ []) :
      CommentRead maxLength (collecting actor reason root task subtree frontier) s
        (collecting actor reason root task (subtree ++ s.site.repliesTo frontier)
          ((s.site.repliesTo frontier).map Prod.fst))
  | flush {s : CommentStore} (actor : Actor) (reason : Text) (root : CommentId) (task : TaskId)
      (subtree : List (CommentId × Comment)) :
      CommentRead maxLength (collecting actor reason root task subtree []) s
        (flushed actor reason root task subtree)

/-- The commits. `stamp` is the database's clock, which an update of a row leaves in it; the ids
of new comments have never been in use. No service removes a comment or an account. -/
inductive CommentCommit (maxLength : ℕ) :
    CommentRequest → CommentStore → CommentEvent → CommentRequest → CommentStore → Prop
  | abandoned {s : CommentStore} (m : CommentRequest) :
      CommentCommit maxLength m s .abandoned idle s
  | undrafted {s : CommentStore} (user : UserId) (command : CreateComment) (e : CommunityError)
      (herror : Community.draft s.site maxLength user command = .error e) :
      CommentCommit maxLength idle s (.refused e) idle s
  | unplaced {s : CommentStore} (d : Draft) (e : CommunityError)
      (herror : s.site.requireVisibleTask d.taskId = .error e) :
      CommentCommit maxLength (drafted d) s (.refused e) idle s
  | orphaned {s : CommentStore} (d : Draft) (p : CommentId) (e : CommunityError)
      (hparent : d.parentId = some p) (herror : s.site.validateParent d.taskId p = .error e) :
      CommentCommit maxLength (placed d) s (.refused e) idle s
  | unknown {s : CommentStore} (id : CommentId) (hnone : s.site.comments.get id = none) :
      CommentCommit maxLength idle s (.refused (.commentNotFound id)) idle s
  | notAdmin {s : CommentStore} (actor : Actor) (id : CommentId)
      (hadmin : isAdmin actor.role = false) :
      CommentCommit maxLength idle s (.refused (.adminRequired id)) idle s
  | uneditable {s : CommentStore} (user : UserId) (content : Text) (id : CommentId)
      (row : Comment) (e : CommunityError)
      (herror : editCheck maxLength user id row content = .error e) :
      CommentCommit maxLength (holding (.edit user content) id row) s (.refused e) idle s
  | undeletable {s : CommentStore} (user : UserId) (reason : Option Text) (id : CommentId)
      (row : Comment) (e : CommunityError) (herror : deleteCheck user id row = .error e) :
      CommentCommit maxLength (holding (.deleteOwn user reason) id row) s (.refused e) idle s
  | denied {s : CommentStore} (actor : Actor) (reason : Text) (id : CommentId) (row : Comment)
      (e : CommunityError) (herror : s.site.requireTaskModerationSite actor row.taskId false
        .moderationDenied = .error e) :
      CommentCommit maxLength (holding (.moderate actor reason) id row) s (.refused e) idle s
  | unmoderated {s : CommentStore} (actor : Actor) (reason : Text) (id : CommentId)
      (row : Comment) (e : CommunityError) (herror : moderateCheck id row reason = .error e) :
      CommentCommit maxLength (standing actor reason id row) s (.refused e) idle s
  | unhidden {s : CommentStore} (actor : Actor) (reason : Text) (id : CommentId) (row : Comment)
      (e : CommunityError) (herror : requireModerationReason reason = .error e) :
      CommentCommit maxLength (holding (.hide actor reason) id row) s (.refused e) idle s
  | created {s : CommentStore} (d : Draft) (id : CommentId) (now : Instant)
      (hfresh : s.site.comments.get id = none) :
      CommentCommit maxLength (ready d) s (.created id d.parentId) idle (s.create id d now)
  | edited {s : CommentStore} (user : UserId) (content new : Text) (id : CommentId)
      (row : Comment) (now : Instant) (hcheck : editCheck maxLength user id row content = .ok new) :
      CommentCommit maxLength (holding (.edit user content) id row) s (.edited id) idle
        (s.edit id row new now)
  | deleted {s : CommentStore} (user : UserId) (reason : Option Text) (id : CommentId)
      (row : Comment) (now stamp : Instant) (hcheck : deleteCheck user id row = .ok ()) :
      CommentCommit maxLength (holding (.deleteOwn user reason) id row) s (.deleted id) idle
        (s.delete id row now user (ownReason reason) stamp [])
  | moderated {s : CommentStore} (actor : Actor) (reason stored : Text) (id : CommentId)
      (row : Comment) (now stamp : Instant)
      (hcheck : moderateCheck id row reason = .ok stored) :
      CommentCommit maxLength (standing actor reason id row) s (.deleted id) idle
        (s.delete id row now actor.userId stored stamp
          [⟨actor, .moderateDeleted, id, stored, row.taskId, 1⟩])
  | hidden {s : CommentStore} (actor : Actor) (reason : Text) (root : CommentId) (task : TaskId)
      (subtree : List (CommentId × Comment)) (now stamp : Instant) :
      CommentCommit maxLength (flushed actor reason root task subtree) s (.hidden root) idle
        (s.hide subtree now actor.userId reason stamp
          [⟨actor, .adminHardHidden, root, reason, task, subtree.length⟩])
  | elsewhere {s : CommentStore} (users : Table UserId Participant) (tasks : Table TaskId TaskFace)
      (collaborators : Table (TaskId × UserId) (List Lifecycle.CollaboratorPermission))
      (hkept : ∀ u, s.site.users.get u ≠ none → users.get u ≠ none) :
      CommentCommit maxLength idle s .elsewhere idle
        { s with site := ⟨users, tasks, collaborators, s.site.comments⟩ }

/-- A later state of a comment: it keeps its place and its author, and what is deleted or hidden
stays so with its content. -/
structure Later (c c' : Comment) : Prop where
  task : c'.taskId = c.taskId
  user : c'.userId = c.userId
  parent : c'.parentId = c.parentId
  hidden : c.isHardHidden = true → c'.isHardHidden = true
  deletedAt : c.deletedAt ≠ none → c'.deletedAt ≠ none
  deletedBy : c.deletedBy ≠ none → c'.deletedBy ≠ none
  deleteReason : c.deleteReason ≠ none → c'.deleteReason ≠ none
  content : c.deletedAt ≠ none → c'.content = c.content

theorem Later.refl (c : Comment) : Later c c :=
  ⟨rfl, rfl, rfl, fun h => h, fun h => h, fun h => h, fun h => h, fun _ => rfl⟩

theorem Later.trans {c c' c'' : Comment} (h : Later c c') (h' : Later c' c'') : Later c c'' where
  task := h'.task.trans h.task
  user := h'.user.trans h.user
  parent := h'.parent.trans h.parent
  hidden hc := h'.hidden (h.hidden hc)
  deletedAt hc := h'.deletedAt (h.deletedAt hc)
  deletedBy hc := h'.deletedBy (h.deletedBy hc)
  deleteReason hc := h'.deleteReason (h.deleteReason hc)
  content hc := (h'.content (h.deletedAt hc)).trans (h.content hc)

/-- The columns of the deletion go together, and a hidden comment is deleted. -/
structure Comment.WellFormed (c : Comment) : Prop where
  deletedBy : c.deletedBy ≠ none ↔ c.deletedAt ≠ none
  deleteReason : c.deleteReason ≠ none ↔ c.deletedAt ≠ none
  hidden : c.isHardHidden = true → c.deletedAt ≠ none

section Rows

variable {c seen : Comment} {now stamp : Instant} {by' : UserId} {reason : Text}

theorem written_ne_none {α : Type} [DecidableEq α] {a b : Option α} {v : α}
    (h : a ≠ none → b ≠ none) : written a b (some v) ≠ none := by
  unfold written
  split
  next heq => exact h (by rw [heq]; exact Option.some_ne_none v)
  next => exact Option.some_ne_none v

theorem row_wellFormed (d : Draft) (now : Instant) : (d.row now).WellFormed where
  deletedBy := iff_of_false (fun h => h rfl) fun h => h rfl
  deleteReason := iff_of_false (fun h => h rfl) fun h => h rfl
  hidden h := (by cases h)

theorem softDelete_later : Later c (c.softDelete now by' reason stamp) :=
  ⟨rfl, rfl, rfl, fun h => h, fun _ => Option.some_ne_none _, fun _ => Option.some_ne_none _,
    fun _ => Option.some_ne_none _, fun _ => rfl⟩

theorem softDelete_wellFormed : (c.softDelete now by' reason stamp).WellFormed where
  deletedBy := iff_of_true (Option.some_ne_none _) (Option.some_ne_none _)
  deleteReason := iff_of_true (Option.some_ne_none _) (Option.some_ne_none _)
  hidden _ := Option.some_ne_none _

variable (now by' reason stamp)

/-- Whatever a hide has read of a row, the row is hidden and deleted after it. -/
theorem hardHide_hidden (h : Later seen c) :
    (c.hardHide seen now by' reason stamp).isHardHidden = true ∧
    (c.hardHide seen now by' reason stamp).deletedAt ≠ none ∧
    (c.hardHide seen now by' reason stamp).deletedBy ≠ none ∧
    (c.hardHide seen now by' reason stamp).deleteReason ≠ none := by
  refine ⟨?_, written_ne_none h.deletedAt, written_ne_none h.deletedBy,
    written_ne_none h.deleteReason⟩
  change written seen.isHardHidden c.isHardHidden true = true
  unfold written
  split
  next hseen => exact h.hidden hseen
  next => rfl

theorem hardHide_later (h : Later seen c) : Later c (c.hardHide seen now by' reason stamp) := by
  obtain ⟨hhidden, hat, hby, hreason⟩ := hardHide_hidden now stamp by' reason h
  exact ⟨rfl, rfl, rfl, fun _ => hhidden, fun _ => hat, fun _ => hby, fun _ => hreason,
    fun _ => rfl⟩

theorem hardHide_wellFormed (h : Later seen c) :
    (c.hardHide seen now by' reason stamp).WellFormed := by
  obtain ⟨_, hat, hby, hreason⟩ := hardHide_hidden now stamp by' reason h
  exact ⟨iff_of_true hby hat, iff_of_true hreason hat, fun _ => hat⟩

end Rows

structure CommentStore.Consistent (s : CommentStore) : Prop where
  parents : ∀ id c p, s.site.comments.get id = some c → c.parentId = some p →
    ∃ q, s.site.comments.get p = some q ∧ q.taskId = c.taskId
  acyclic : Acyclic s.site.parentOf
  revised : ∀ r ∈ s.revisions, s.site.comments.get r.commentId ≠ none
  wellFormed : ∀ id c, s.site.comments.get id = some c → c.WellFormed
  authors : ∀ id c, s.site.comments.get id = some c → s.site.users.get c.userId ≠ none

/-- What a hide has read of the tree: its root and comments below it, as they were. -/
structure Collected (s : CommentStore) (top : CommentId)
    (subtree : List (CommentId × Comment)) : Prop where
  root : ∃ row, (top, row) ∈ subtree
  below : ∀ k seen, (k, seen) ∈ subtree → k = top ∨ Below s.site.parentOf k top
  later : ∀ k seen, (k, seen) ∈ subtree →
    ∃ row, s.site.comments.get k = some row ∧ Later seen row

/-- What a request knows of the comments: its author exists, its parent is in the task, its
locked row is current, and what it has collected is below its root. -/
def CommentStore.Knows (s : CommentStore) : CommentRequest → Prop
  | drafted d | placed d => s.site.users.get d.userId ≠ none
  | ready d => s.site.users.get d.userId ≠ none ∧ ∀ p, d.parentId = some p →
    ∃ q, s.site.comments.get p = some q ∧ q.taskId = d.taskId
  | holding _ id row | standing _ _ id row => s.site.comments.get id = some row
  | collecting _ _ root _ subtree frontier =>
    Collected s root subtree ∧ ∀ k ∈ frontier, k ∈ subtree.map Prod.fst
  | flushed _ _ root _ subtree => Collected s root subtree
  | _ => True

def commentProtocol (maxLength : ℕ) :
    Protocol CommentStore CommentId CommentRequest CommentEvent where
  locks := CommentRequest.locks
  known m s := s.Knows m
  start m := m = idle
  read := CommentRead maxLength
  commit := CommentCommit maxLength

def commentSystem (maxLength : ℕ) (ι : Type*) [DecidableEq ι] :
    System (Config ι CommentStore CommentRequest) (Move ι CommentEvent) :=
  (commentProtocol maxLength).system ι CommentStore.Consistent

section Effects

variable {maxLength : ℕ} {s s' : CommentStore} {m m' o : CommentRequest} {ev : CommentEvent}
  {id k : CommentId}

theorem draft_user {user : UserId} {command : CreateComment} {d : Draft}
    (h : draft s.site maxLength user command = .ok d) : s.site.users.get d.userId ≠ none := by
  obtain ⟨_, hwriter, h⟩ := bind_ok.mp h
  obtain ⟨_, _, h⟩ := bind_ok.mp h
  obtain rfl := Except.ok.inj h
  obtain ⟨row, hrow, _⟩ := orRefuse_bind_ok.mp hwriter
  exact Option.ne_none_iff_exists'.mpr ⟨row, hrow⟩

theorem validParent {task : TaskId} {p : CommentId} (h : s.site.validateParent task p = .ok ()) :
    ∃ q, s.site.comments.get p = some q ∧ q.taskId = task := by
  obtain ⟨q, hq, h⟩ := orRefuse_bind_ok.mp h
  exact ⟨q, hq, (ensure_bind_ok.mp h).1⟩

theorem editCheck_live {user : UserId} {row : Comment} {content new : Text}
    (h : editCheck maxLength user id row content = .ok new) : row.deletedAt = none := by
  obtain ⟨_, h⟩ := ensure_bind_ok.mp h
  exact (ensure_bind_ok.mp h).1

theorem mem_repliesTo {frontier : List CommentId} {c : Comment} :
    (id, c) ∈ s.site.repliesTo frontier ↔
      s.site.comments.get id = some c ∧ ∃ p ∈ frontier, c.parentId = some p := by
  unfold Site.repliesTo
  rw [Table.mem_scan]
  cases c.parentId with
  | none => simp
  | some p => simp

theorem get_hide {subtree : List (CommentId × Comment)} {now stamp : Instant} {by' : UserId}
    {reason : Text} {audit : List CommentAudit} :
    (s.hide subtree now by' reason stamp audit).site.comments.get id =
      (s.site.comments.get id).map fun row =>
        match subtree.lookup id with
        | some seen => row.hardHide seen now by' (hardHiddenReason reason) stamp
        | none => row :=
  Table.get_mapRows _ id

theorem mem_of_lookup {l : List (CommentId × Comment)} {seen : Comment}
    (h : l.lookup id = some seen) : (id, seen) ∈ l := by
  induction l with
  | nil => cases h
  | cons e l ih =>
    obtain ⟨k, c⟩ := e
    rw [List.lookup_cons] at h
    split at h
    next heq =>
      obtain rfl := eq_of_beq heq
      rw [Option.some.inj h]
      exact List.mem_cons_self
    next => exact List.mem_cons_of_mem _ (ih h)

theorem lookup_of_mem {l : List (CommentId × Comment)} (h : id ∈ l.map Prod.fst) :
    ∃ seen, l.lookup id = some seen := by
  induction l with
  | nil => cases h
  | cons e l ih =>
    obtain ⟨k, c⟩ := e
    rw [List.lookup_cons]
    by_cases hk : id = k
    · exact ⟨c, by rw [hk]; simp⟩
    · have hbeq : (id == k) = false := beq_false_of_ne hk
      rw [hbeq]
      exact ih ((List.mem_cons.mp h).resolve_left hk)

/-- Every comment stays, in a later state. -/
theorem CommentCommit.later (h : CommentCommit maxLength m s ev m' s') (hknown : s.Knows m)
    {c : Comment} (hget : s.site.comments.get id = some c) :
    ∃ c', s'.site.comments.get id = some c' ∧ Later c c' := by
  have hput {k : CommentId} {row row' : Comment} (hrow : s.site.comments.get k = some row)
      (hlater : Later row row') :
      ∃ c', (s.site.comments.put k row').get id = some c' ∧ Later c c' := by
    by_cases hid : id = k
    · subst hid
      obtain rfl : c = row := Option.some.inj (hget.symm.trans hrow)
      exact ⟨row', Table.get_put_self _ _ _, hlater⟩
    · exact ⟨c, (Table.get_put_of_ne _ _ hid).trans hget, Later.refl c⟩
  cases h with
  | created d k now hfresh =>
    have hne : id ≠ k := by
      rintro rfl
      rw [hfresh] at hget
      cases hget
    exact ⟨c, (Table.get_put_of_ne _ _ hne).trans hget, Later.refl c⟩
  | edited user content new k row now hcheck =>
    have hlive := editCheck_live hcheck
    exact hput hknown ⟨rfl, rfl, rfl, fun h => h, fun h => h, fun h => h, fun h => h,
      fun h => absurd hlive h⟩
  | deleted user reason k row now stamp hcheck => exact hput hknown softDelete_later
  | moderated actor reason stored k row now stamp hcheck => exact hput hknown softDelete_later
  | hidden actor reason root task subtree now stamp =>
    refine ⟨_, get_hide.trans (congrArg _ hget), ?_⟩
    dsimp only
    split
    next seen hlookup =>
      obtain ⟨row, hrow, hlater⟩ := hknown.later id seen (mem_of_lookup hlookup)
      obtain rfl : c = row := Option.some.inj (hget.symm.trans hrow)
      exact hardHide_later _ _ _ _ hlater
    next => exact Later.refl c
  | _ => exact ⟨c, hget, Later.refl c⟩

/-- A comment that is not locked by the request stays as it is. -/
theorem CommentCommit.get_unlocked (h : CommentCommit maxLength m s ev m' s') {c : Comment}
    (hget : s.site.comments.get id = some c) (hfree : ¬ m.locks id) :
    s'.site.comments.get id = some c := by
  cases h with
  | created d k now hfresh =>
    have hne : id ≠ k := by
      rintro rfl
      rw [hfresh] at hget
      cases hget
    exact (Table.get_put_of_ne _ _ hne).trans hget
  | edited => exact (Table.get_put_of_ne _ _ hfree).trans hget
  | deleted => exact (Table.get_put_of_ne _ _ hfree).trans hget
  | moderated => exact (Table.get_put_of_ne _ _ hfree).trans hget
  | hidden actor reason root task subtree now stamp =>
    refine get_hide.trans ?_
    rw [hget, Option.map_some]
    cases hlookup : subtree.lookup id with
    | none => rfl
    | some seen =>
      exact absurd (Or.inr (List.mem_map_of_mem (f := Prod.fst) (mem_of_lookup hlookup))) hfree
  | _ => exact hget

theorem CommentCommit.users (h : CommentCommit maxLength m s ev m' s') {u : UserId}
    (hu : s.site.users.get u ≠ none) : s'.site.users.get u ≠ none := by
  cases h with
  | elsewhere users tasks collaborators hkept => exact hkept u hu
  | _ => exact hu

theorem parentOf_eq {c : Comment} (hget : s.site.comments.get id = some c) :
    s.site.parentOf id = c.parentId := by
  unfold Site.parentOf
  rw [hget]
  rfl

theorem CommentCommit.parentOf_mono (h : CommentCommit maxLength m s ev m' s')
    (hknown : s.Knows m) {x y : CommentId} (hparent : s.site.parentOf x = some y) :
    s'.site.parentOf x = some y := by
  obtain ⟨c, hget, hc⟩ := Option.bind_eq_some_iff.mp hparent
  obtain ⟨c', hget', hlater⟩ := h.later hknown hget
  rw [parentOf_eq hget', hlater.parent]
  exact hc

theorem Collected.mono {subtree : List (CommentId × Comment)} (h : Collected s k subtree)
    (hlater : ∀ id c, s.site.comments.get id = some c →
      ∃ c', s'.site.comments.get id = some c' ∧ Later c c')
    (hparent : ∀ x y, s.site.parentOf x = some y → s'.site.parentOf x = some y) :
    Collected s' k subtree where
  root := h.root
  below x seen hmem := (h.below x seen hmem).imp id fun hbelow => hbelow.mono hparent
  later x seen hmem := by
    obtain ⟨row, hget, hseen⟩ := h.later x seen hmem
    obtain ⟨row', hget', hrow⟩ := hlater x row hget
    exact ⟨row', hget', hseen.trans hrow⟩

/-- What another request knows stays so. -/
theorem CommentCommit.knows (h : CommentCommit maxLength m s ev m' s') (hknown : s.Knows m)
    (hother : s.Knows o) (hdisjoint : ∀ k, m.locks k → ¬ o.locks k) : s'.Knows o := by
  have hplace {d : Draft} (hd : ∀ p, d.parentId = some p →
      ∃ q, s.site.comments.get p = some q ∧ q.taskId = d.taskId) (p : CommentId)
      (hp : d.parentId = some p) : ∃ q, s'.site.comments.get p = some q ∧ q.taskId = d.taskId := by
    obtain ⟨q, hq, htask⟩ := hd p hp
    obtain ⟨q', hq', hlater⟩ := h.later hknown hq
    exact ⟨q', hq', hlater.task.trans htask⟩
  cases o with
  | idle => trivial
  | drafted d => exact h.users hother
  | placed d => exact h.users hother
  | ready d => exact ⟨h.users hother.1, hplace hother.2⟩
  | holding job id row => exact h.get_unlocked hother fun hm => hdisjoint id hm rfl
  | standing actor reason id row => exact h.get_unlocked hother fun hm => hdisjoint id hm rfl
  | collecting actor reason root task subtree frontier =>
    exact ⟨hother.1.mono (fun _ _ hget => h.later hknown hget)
      fun _ _ hparent => h.parentOf_mono hknown hparent, hother.2⟩
  | flushed actor reason root task subtree =>
    exact Collected.mono hother (fun _ _ hget => h.later hknown hget)
      fun _ _ hparent => h.parentOf_mono hknown hparent

theorem read_keeps (hknown : s.Knows m) (hread : CommentRead maxLength m s m') : s.Knows m' := by
  cases hread with
  | draft user command d hdraft => exact draft_user hdraft
  | place d hvisible => exact hknown
  | root d hroot => exact ⟨hknown, fun p hp => (by rw [hroot] at hp; cases hp)⟩
  | parent d p hparent hvalid =>
    refine ⟨hknown, fun p' hp' => ?_⟩
    obtain rfl : p = p' := Option.some.inj (hparent.symm.trans hp')
    exact validParent hvalid
  | lock job id row hget hadmin => exact hget
  | stand => exact hknown
  | collect actor reason stored id row hreason =>
    refine ⟨⟨⟨row, List.mem_singleton_self _⟩, fun k seen hmem => ?_, fun k seen hmem => ?_⟩, ?_⟩
    · obtain ⟨rfl, _⟩ := Prod.mk.inj (List.mem_singleton.mp hmem)
      exact Or.inl rfl
    · obtain ⟨rfl, rfl⟩ := Prod.mk.inj (List.mem_singleton.mp hmem)
      exact ⟨seen, hknown, Later.refl seen⟩
    · exact fun k hk => hk
  | descend actor reason root task subtree frontier hmore =>
    obtain ⟨hcollected, hfrontier⟩ := hknown
    refine ⟨⟨?_, fun k seen hmem => ?_, fun k seen hmem => ?_⟩, fun k hk => ?_⟩
    · obtain ⟨row, hrow⟩ := hcollected.root
      exact ⟨row, List.mem_append_left _ hrow⟩
    · rcases List.mem_append.mp hmem with hold | hnew
      · exact hcollected.below k seen hold
      · obtain ⟨hget, p, hp, hparent⟩ := mem_repliesTo.mp hnew
        have hedge : s.site.parentOf k = some p := (parentOf_eq hget).trans hparent
        obtain ⟨⟨p', seen'⟩, hmem', rfl⟩ := List.mem_map.mp (hfrontier p hp)
        exact Or.inr (below_iff.mpr ⟨p', hedge, hcollected.below p' seen' hmem'⟩)
    · rcases List.mem_append.mp hmem with hold | hnew
      · exact hcollected.later k seen hold
      · exact ⟨seen, (mem_repliesTo.mp hnew).1, Later.refl seen⟩
    · rw [List.map_append]
      exact List.mem_append_right _ hk
  | flush => exact hknown.1

theorem CommentCommit.born (h : CommentCommit maxLength m s ev m' s') (hknown : s.Knows m)
    (hnone : s.site.comments.get id = none) {c : Comment}
    (hget : s'.site.comments.get id = some c) :
    ∃ d now, m = ready d ∧ ev = .created id d.parentId ∧ c = d.row now ∧
      s' = s.create id d now := by
  have hput {k : CommentId} {row row' : Comment} (hrow : s.site.comments.get k = some row)
      (hnew : (s.site.comments.put k row').get id = some c) : False :=
    Table.get_ne_none_of_put hrow hnew hnone
  cases h with
  | created d k now hfresh =>
    rcases Table.get_put_eq_some hget with ⟨rfl, rfl⟩ | ⟨_, hold⟩
    · exact ⟨d, now, rfl, rfl, rfl, rfl⟩
    · rw [hnone] at hold
      cases hold
  | edited => exact (hput hknown hget).elim
  | deleted => exact (hput hknown hget).elim
  | moderated => exact (hput hknown hget).elim
  | hidden actor reason root task subtree now stamp =>
    rw [get_hide, hnone] at hget
    cases hget
  | _ =>
    rw [show s.site.comments.get id = none from hnone] at hget
    cases hget

theorem parentOf_create {d : Draft} {now : Instant} :
    (s.create id d now).site.parentOf = Function.update s.site.parentOf id d.parentId := by
  funext x
  by_cases hx : x = id
  · subst hx
    rw [Function.update_self]
    exact congrArg (Option.bind · Comment.parentId) (Table.get_put_self _ _ _)
  · rw [Function.update_of_ne hx]
    exact congrArg (Option.bind · Comment.parentId) (Table.get_put_of_ne _ _ hx)

/-- The forest grows by the comment that is created and by nothing else. -/
theorem CommentCommit.parentOf_cases (h : CommentCommit maxLength m s ev m' s')
    (hknown : s.Knows m) :
    s'.site.parentOf = s.site.parentOf ∨ ∃ id d now, m = ready d ∧
      ev = .created id d.parentId ∧ s.site.comments.get id = none ∧ s' = s.create id d now := by
  by_cases hcreated : ∃ id d now, m = ready d ∧
      ev = .created id d.parentId ∧ s.site.comments.get id = none ∧ s' = s.create id d now
  · exact Or.inr hcreated
  refine Or.inl (funext fun x => ?_)
  cases hget : s.site.comments.get x with
  | some c =>
    obtain ⟨c', hget', hlater⟩ := h.later hknown hget
    rw [parentOf_eq hget, parentOf_eq hget', hlater.parent]
  | none =>
    cases hget' : s'.site.comments.get x with
    | none => exact congrArg (Option.bind · Comment.parentId) (hget'.trans hget.symm)
    | some c' =>
      obtain ⟨d, now, hm, hev, _, hcreate⟩ := h.born hknown hget hget'
      exact absurd ⟨x, d, now, hm, hev, hget, hcreate⟩ hcreated


theorem CommentStore.Consistent.getLast?_versions (hs : s.Consistent) (id : CommentId) :
    (s.versions id).getLast? = s.content id := by
  unfold CommentStore.versions
  cases hcontent : s.content id with
  | some content => exact List.getLast?_concat
  | none =>
    have hnone : (s.revisions.filter fun r => r.commentId = id) = [] :=
      List.filter_eq_nil_iff.mpr fun r hr heq =>
        hs.revised r hr (of_decide_eq_true heq ▸ Option.map_eq_none_iff.mp hcontent)
    rw [hnone]
    rfl

/-- A commit puts the content that it gives to a comment at the end of its versions. -/
theorem CommentCommit.versions (h : CommentCommit maxLength m s ev m' s') (hs : s.Consistent)
    (hknown : s.Knows m) (id : CommentId) :
    s'.versions id = s.versions id ++ (s'.newContent id ev).toList := by
  have hsame {s' : CommentStore} (hrevisions : s'.revisions = s.revisions)
      (hcontent : s'.content id = s.content id) : s'.versions id = s.versions id ++ [] := by
    unfold CommentStore.versions
    rw [hrevisions, hcontent, List.append_nil]
  have hput {k : CommentId} {row row' : Comment} (hrow : s.site.comments.get k = some row)
      (hcontent : row'.content = row.content) :
      ((s.site.comments.put k row').get id).map Comment.content = s.content id := by
    unfold CommentStore.content
    by_cases hid : id = k
    · subst hid
      rw [Table.get_put_self, hrow, Option.map_some, Option.map_some, hcontent]
    · rw [Table.get_put_of_ne _ _ hid]
  cases h with
  | created d k now hfresh =>
    by_cases hid : k = id
    · subst hid
      have hnone : (s.revisions.filter fun r => r.commentId = k) = [] :=
        List.filter_eq_nil_iff.mpr fun r hr heq =>
          hs.revised r hr (of_decide_eq_true heq ▸ hfresh)
      have hbefore : s.content k = none := congrArg (Option.map Comment.content) hfresh
      have hafter : (s.create k d now).content k = some d.content :=
        congrArg (Option.map Comment.content) (Table.get_put_self _ _ _)
      have hnew : (s.create k d now).newContent k (.created k d.parentId) = some d.content :=
        (if_pos rfl).trans hafter
      unfold CommentStore.versions
      rw [hnew, hbefore, hafter]
      change (s.revisions.filter _).map _ ++ _ = _
      rw [hnone]
      rfl
    · have hnew : (s.create k d now).newContent id (.created k d.parentId) = none :=
        if_neg fun h => hid (Option.some.inj h)
      rw [hnew]
      exact hsame rfl (congrArg (Option.map Comment.content)
        (Table.get_put_of_ne _ _ (Ne.symm hid)))
  | edited user content new k row now hcheck =>
    by_cases hid : k = id
    · subst hid
      have hbefore : s.content k = some row.content := congrArg (Option.map Comment.content) hknown
      have hafter : (s.edit k row new now).content k = some new :=
        congrArg (Option.map Comment.content) (Table.get_put_self _ _ _)
      have hnew : (s.edit k row new now).newContent k (.edited k) = some new :=
        (if_pos rfl).trans hafter
      unfold CommentStore.versions
      rw [hnew, hbefore, hafter]
      change ((s.revisions ++ [(⟨k, row.content, now⟩ : Revision)]).filter _).map _ ++ _ = _
      rw [List.filter_append, List.map_append]
      simp
    · have hother : ([⟨k, row.content, now⟩] : List Revision).filter (fun r => r.commentId = id) =
          [] := by simp [hid]
      have hcontent : (s.edit k row new now).content id = s.content id :=
        congrArg (Option.map Comment.content) (Table.get_put_of_ne _ _ (Ne.symm hid))
      have hnew : (s.edit k row new now).newContent id (.edited k) = none :=
        if_neg fun h => hid (Option.some.inj h)
      unfold CommentStore.versions
      rw [hnew, hcontent]
      change ((s.revisions ++ [(⟨k, row.content, now⟩ : Revision)]).filter _).map _ ++ _ = _
      rw [List.filter_append, hother]
      simp
  | deleted => exact hsame rfl (hput hknown rfl)
  | moderated => exact hsame rfl (hput hknown rfl)
  | hidden actor reason root task subtree now stamp =>
    refine hsame rfl ((congrArg (Option.map Comment.content) get_hide).trans ?_)
    rw [Option.map_map]
    refine congrFun (congrArg Option.map (funext fun row => ?_)) _
    cases hlookup : subtree.lookup id <;> simp [Comment.hardHide]
  | _ => exact hsame rfl rfl

/-- A comment that is about to be created is nobody's parent, not even its own. -/
theorem created_leaf {d : Draft} (hs : s.Consistent) (hknown : s.Knows (ready d))
    (hfresh : s.site.comments.get id = none) :
    s.site.parentOf id = none ∧ (∀ x, s.site.parentOf x ≠ some id) ∧ d.parentId ≠ some id := by
  refine ⟨congrArg (Option.bind · Comment.parentId) hfresh, fun x hx => ?_, fun hself => ?_⟩
  · obtain ⟨c, hget, hc⟩ := Option.bind_eq_some_iff.mp hx
    obtain ⟨q, hq, _⟩ := hs.parents x c id hget hc
    rw [hfresh] at hq
    cases hq
  · obtain ⟨q, hq, _⟩ := hknown.2 id hself
    rw [hfresh] at hq
    cases hq

theorem CommentCommit.consistent (h : CommentCommit maxLength m s ev m' s') (hs : s.Consistent)
    (hknown : s.Knows m) : s'.Consistent where
  parents id c' p hget' hp := by
    have hplace {c : Comment} {p : CommentId} (htask : ∃ q, s.site.comments.get p = some q ∧
        q.taskId = c.taskId) : ∃ q, s'.site.comments.get p = some q ∧ q.taskId = c.taskId := by
      obtain ⟨q, hq, htask⟩ := htask
      obtain ⟨q', hq', hlater⟩ := h.later hknown hq
      exact ⟨q', hq', hlater.task.trans htask⟩
    cases hget : s.site.comments.get id with
    | some c =>
      obtain ⟨c₁, hget₁, hlater⟩ := h.later hknown hget
      obtain rfl : c₁ = c' := Option.some.inj (hget₁.symm.trans hget')
      rw [hlater.task]
      exact hplace (hs.parents id c p hget (hlater.parent ▸ hp))
    | none =>
      obtain ⟨d, now, rfl, _, rfl, _⟩ := h.born hknown hget hget'
      exact hplace (c := d.row now) (hknown.2 p hp)
  acyclic := by
    rcases h.parentOf_cases hknown with hsame | ⟨id, d, now, rfl, _, hfresh, rfl⟩
    · rw [hsame]
      exact hs.acyclic
    · rw [parentOf_create]
      obtain ⟨hnone, hleaf, hself⟩ := created_leaf hs hknown hfresh
      exact acyclic_leaf hs.acyclic hnone hleaf hself
  revised := by
    have hold : ∀ r ∈ s.revisions, s'.site.comments.get r.commentId ≠ none := by
      intro r hr
      obtain ⟨c, hget⟩ := Option.ne_none_iff_exists'.mp (hs.revised r hr)
      obtain ⟨c', hget', _⟩ := h.later hknown hget
      exact Option.ne_none_iff_exists'.mpr ⟨c', hget'⟩
    cases h with
    | edited user content new id row now hcheck =>
      intro r hr
      rcases List.mem_append.mp hr with hr | hr
      · exact hold r hr
      · obtain rfl := List.mem_singleton.mp hr
        exact Option.ne_none_iff_exists'.mpr ⟨_, Table.get_put_self _ _ _⟩
    | _ => exact hold
  wellFormed id c' hget' := by
    cases h with
    | created d k now hfresh =>
      rcases Table.get_put_eq_some hget' with ⟨rfl, rfl⟩ | ⟨_, hold⟩
      · exact row_wellFormed d now
      · exact hs.wellFormed id c' hold
    | edited user content new k row now hcheck =>
      rcases Table.get_put_eq_some hget' with ⟨rfl, rfl⟩ | ⟨_, hold⟩
      · obtain ⟨hby, hreason, hhidden⟩ := hs.wellFormed _ row hknown
        exact ⟨hby, hreason, hhidden⟩
      · exact hs.wellFormed id c' hold
    | deleted =>
      rcases Table.get_put_eq_some hget' with ⟨rfl, rfl⟩ | ⟨_, hold⟩
      · exact softDelete_wellFormed
      · exact hs.wellFormed id c' hold
    | moderated =>
      rcases Table.get_put_eq_some hget' with ⟨rfl, rfl⟩ | ⟨_, hold⟩
      · exact softDelete_wellFormed
      · exact hs.wellFormed id c' hold
    | hidden actor reason root task subtree now stamp =>
      obtain ⟨row, hget, rfl⟩ := Option.map_eq_some_iff.mp (get_hide.symm.trans hget')
      split
      next seen hlookup =>
        obtain ⟨row', hrow, hlater⟩ := hknown.later id seen (mem_of_lookup hlookup)
        obtain rfl : row = row' := Option.some.inj (hget.symm.trans hrow)
        exact hardHide_wellFormed _ _ _ _ hlater
      next => exact hs.wellFormed id row hget
    | _ => exact hs.wellFormed id c' hget'
  authors id c' hget' := by
    cases hget : s.site.comments.get id with
    | some c =>
      obtain ⟨c₁, hget₁, hlater⟩ := h.later hknown hget
      obtain rfl : c₁ = c' := Option.some.inj (hget₁.symm.trans hget')
      rw [hlater.user]
      exact h.users (hs.authors id c hget)
    | none =>
      obtain ⟨d, now, rfl, _, rfl, _⟩ := h.born hknown hget hget'
      exact h.users hknown.1

end Effects

theorem commentProtocol_sound (maxLength : ℕ) :
    (commentProtocol maxLength).Sound CommentStore.Consistent where
  start_locks m k hm := by
    subst hm
    exact id
  start_known m s hm := by
    subst hm
    trivial
  read_known m s m' hknown hread := read_keeps hknown hread
  commit_inv m s ev m' s' hs hknown hcommit := hcommit.consistent hs hknown
  commit_known m s ev m' s' _ _ hcommit := by
    cases hcommit <;> trivial
  commit_stable m s ev m' s' o _ hknown hcommit hother hdisjoint :=
    hcommit.knows hknown hother hdisjoint

section Runs

variable {maxLength : ℕ} {ι : Type*} [DecidableEq ι] {c c' : Config ι CommentStore CommentRequest}
  {a : Move ι CommentEvent}

/-- A step leaves the store alone, or it is a commit of a request that knows its rows. -/
theorem comment_step (hc : (commentSystem maxLength ι).Reach c)
    (hstep : (commentSystem maxLength ι).step c a c') :
    c.store.Consistent ∧ ((a.2 = none ∧ c'.store = c.store) ∨
      ∃ ev m', a.2 = some ev ∧ c.store.Knows (c.proc a.1) ∧
        CommentCommit maxLength (c.proc a.1) c.store ev m' c'.store) :=
  (commentProtocol_sound maxLength).step_store (fun _ h => h) hc hstep

theorem comment_later (hc : (commentSystem maxLength ι).Reach c)
    (hstep : (commentSystem maxLength ι).step c a c') {id : CommentId} {row : Comment}
    (hget : c.store.site.comments.get id = some row) :
    ∃ row', c'.store.site.comments.get id = some row' ∧ Later row row' := by
  obtain ⟨_, ⟨_, hsame⟩ | ⟨ev, m', _, hknown, hcommit⟩⟩ := comment_step hc hstep
  · exact ⟨row, hsame ▸ hget, Later.refl row⟩
  · exact hcommit.later hknown hget

def givenContent (id : CommentId)
    (e : Config ι CommentStore CommentRequest × Move ι CommentEvent ×
      Config ι CommentStore CommentRequest) : Option Text :=
  e.2.1.2.bind (e.2.2.store.newContent id)

theorem comment_versions (hc : (commentSystem maxLength ι).Reach c)
    (hstep : (commentSystem maxLength ι).step c a c') (id : CommentId) :
    c'.store.versions id = c.store.versions id ++ (givenContent id (c, a, c')).toList := by
  obtain ⟨hs, ⟨hnone, hsame⟩ | ⟨ev, m', hev, hknown, hcommit⟩⟩ := comment_step hc hstep
  · unfold givenContent
    rw [hsame, hnone]
    exact (List.append_nil _).symm
  · unfold givenContent
    rw [hcommit.versions hs hknown, hev]
    rfl

theorem deleted_stays (hc : (commentSystem maxLength ι).Reach c)
    {l : List (Config ι CommentStore CommentRequest × Move ι CommentEvent ×
      Config ι CommentStore CommentRequest)}
    (hrun : (commentSystem maxLength ι).Run c l c') {id : CommentId} {row : Comment}
    (hget : c.store.site.comments.get id = some row) (hdeleted : row.deletedAt ≠ none) :
    ∃ row', c'.store.site.comments.get id = some row' ∧ row'.deletedAt ≠ none ∧
      row'.content = row.content := by
  refine hrun.keeps
    (P := fun c => ∃ row', c.store.site.comments.get id = some row' ∧ row'.deletedAt ≠ none ∧
      row'.content = row.content)
    (fun c₁ a c₂ hc₁ ⟨row₁, hget₁, hdeleted₁, hcontent₁⟩ hstep => ?_) hc
    ⟨row, hget, hdeleted, rfl⟩
  obtain ⟨row₂, hget₂, hlater⟩ := comment_later hc₁ hstep hget₁
  exact ⟨row₂, hget₂, hlater.deletedAt hdeleted₁, (hlater.content hdeleted₁).trans hcontent₁⟩

end Runs

/-- In every run of the writes to the comments: the comments are a forest within each task, the
columns of a deletion are set together, and what is hidden is deleted; the revisions of a comment
and its content are the contents that the run gave to it, in order, and its content changes only
then; and a comment that is deleted stays so, and is not edited any more. -/
theorem comment_forest_and_history (maxLength : ℕ) {ι : Type*} [DecidableEq ι]
    {c c' : Config ι CommentStore CommentRequest}
    {l : List (Config ι CommentStore CommentRequest × Move ι CommentEvent ×
      Config ι CommentStore CommentRequest)}
    (hc : (commentSystem maxLength ι).Reach c) (hrun : (commentSystem maxLength ι).Run c l c') :
    c.store.Consistent ∧
    (∀ id, c'.store.versions id = c.store.versions id ++ l.filterMap (givenContent id)) ∧
    (∀ e ∈ l, ∀ id, givenContent id e = none → e.2.2.store.content id = e.1.store.content id) ∧
    (∀ id row, c.store.site.comments.get id = some row → row.deletedAt ≠ none →
      (∃ row', c'.store.site.comments.get id = some row' ∧ row'.deletedAt ≠ none ∧
        row'.content = row.content) ∧
      ∀ e ∈ l, e.2.1.2 ≠ some (.edited id)) := by
  refine ⟨((commentProtocol_sound maxLength).current (fun _ h => h) hc).inv, fun id => ?_,
    ?_, fun id row hget hdeleted => ⟨deleted_stays hc hrun hget hdeleted, ?_⟩⟩
  · induction hrun with
    | nil => exact (List.append_nil _).symm
    | snoc hrun hstep ih =>
      rw [comment_versions (hrun.reach hc) hstep, ih, List.filterMap_append, List.append_assoc]
      cases hgiven : givenContent id _ <;> simp [hgiven]
  · rintro ⟨c₁, a, c₂⟩ he id hnone
    obtain ⟨hstep, l', hbefore⟩ := hrun.step_mem he
    have hreach := hbefore.reach hc
    have hafter := ((commentProtocol_sound maxLength).current (fun _ h => h) (.step hreach hstep)).inv
    have hversions := comment_versions hreach hstep id
    rw [hnone] at hversions
    have hlast := (comment_step hreach hstep).1.getLast?_versions id
    rw [← hafter.getLast?_versions id, ← hlast, hversions]
    exact congrArg List.getLast? (List.append_nil _)
  · rintro ⟨c₁, ⟨i, label⟩, c₂⟩ he hlabel
    obtain ⟨hstep, l', hbefore⟩ := hrun.step_mem he
    obtain ⟨row₁, hget₁, hdeleted₁, _⟩ := deleted_stays hc hbefore hget hdeleted
    obtain ⟨_, hknown, m', hcommit⟩ :=
      (commentProtocol_sound maxLength).event (fun _ h => h) hc hrun he hlabel
    dsimp only at hknown hcommit
    generalize c₁.proc i = m at hcommit hknown
    generalize c₂.store = s₂ at hcommit
    cases hcommit with
    | edited user content new _ row₂ now hcheck =>
      obtain rfl : row₁ = row₂ := Option.some.inj (hget₁.symm.trans hknown)
      exact hdeleted₁ (editCheck_live hcheck)

section Example

def firstComment : Comment := ⟨5, 9, none, ['c'], false, 0, 0, none, none, none, false⟩

def commented : CommentStore where
  site :=
    { users := Table.empty.put 9 ⟨.student, .active, ['s']⟩
      tasks := Table.empty.put 5 ⟨2, .published⟩
      collaborators := .empty
      comments := Table.empty.put 3 firstComment }
  revisions := []
  audit := []

theorem commented_get {id : CommentId} {c : Comment}
    (h : commented.site.comments.get id = some c) : c = firstComment := by
  rcases Table.get_put_eq_some h with ⟨_, rfl⟩ | ⟨_, hold⟩
  · rfl
  · cases hold

theorem commented_consistent : commented.Consistent where
  parents id c p hget hp := by
    obtain rfl := commented_get hget
    cases hp
  acyclic := by
    intro x hx
    obtain ⟨y, hparent, _⟩ := below_iff.mp hx
    obtain ⟨c, hget, hc⟩ := Option.bind_eq_some_iff.mp hparent
    obtain rfl := commented_get hget
    cases hc
  revised r hr := nomatch hr
  wellFormed id c hget := by
    obtain rfl := commented_get hget
    exact row_wellFormed ⟨9, 5, none, ['c'], false⟩ 0
  authors id c hget := by
    obtain rfl := commented_get hget
    exact Option.some_ne_none _

/-- The comment is edited: its old content is its revision. -/
theorem edited_comment_versions :
    (commented.edit 3 firstComment ['d'] 7).versions 3 = [['c'], ['d']] := by
  have hfree (k : CommentId) : ¬ CommentRequest.locks idle k := id
  have hstart := Protocol.reaches_start (P := commentProtocol 500) (G := fun _ _ => True)
    commented_consistent (m := idle) (n := idle) rfl rfl
  have hlocked := hstart.read_left
    (.lock (.edit 9 ['d']) 3 firstComment (by rfl) (fun _ _ h => nomatch h))
    (fun k _ => hfree k) trivial
  have hstep := Protocol.Step.commit (P := commentProtocol 500)
    ⟨commented, pair (holding (.edit 9 ['d']) 3 firstComment) idle⟩ false _ _ _
    (.edited 9 ['d'] ['d'] 3 firstComment 7 (by decide +kernel))
    (Protocol.free_left fun k _ => hfree k)
  exact (comment_forest_and_history 500 (System.Reach.of_guarded hlocked)
    (.snoc (.nil _) hstep)).2.1 3

end Example

end CampusQuest.Community
