import CampusQuest.CommunityRows
import CampusQuest.Forests

/-!
The public list of a task's comments and the serializers behind it. A live comment renders, a
deleted one as a tombstone while a child of it renders, a hard-hidden one never. An author is
shown by a nickname, or not at all.
-/

namespace CampusQuest.Community

open Forests Guards Tables

structure Revision where
  commentId : CommentId
  content : Text
  editedAt : Instant
  deriving DecidableEq

structure CommentPublic where
  id : CommentId
  taskId : TaskId
  parentId : Option CommentId
  content : Option Text
  isAnonymous : Bool
  authorDisplay : Text
  createdAt : Instant
  updatedAt : Instant
  edited : Bool
  deleted : Bool
  deriving DecidableEq

def anonymousAuthorDisplay : Text := "匿名用户".toList

def deletedCommentDisplay : Text := "该评论已删除".toList

def serializePublicComment (id : CommentId) (comment : Comment) (authorNickname : Text)
    (edited : Bool) : CommentPublic where
  id := id
  taskId := comment.taskId
  parentId := comment.parentId
  content := some comment.content
  isAnonymous := comment.isAnonymous
  authorDisplay := if comment.isAnonymous then anonymousAuthorDisplay else authorNickname
  createdAt := comment.createdAt
  updatedAt := comment.updatedAt
  edited := edited
  deleted := comment.deletedAt.isSome

def serializeTombstoneComment (id : CommentId) (comment : Comment) : CommentPublic where
  id := id
  taskId := comment.taskId
  parentId := comment.parentId
  content := none
  isAnonymous := comment.isAnonymous
  authorDisplay := deletedCommentDisplay
  createdAt := comment.createdAt
  updatedAt := comment.updatedAt
  edited := false
  deleted := true

def serializeRow (id : CommentId) (comment : Comment) (nickname : Text) (edited : Bool) :
    CommentPublic :=
  if comment.deletedAt.isSome then serializeTombstoneComment id comment
  else serializePublicComment id comment nickname edited

def Comment.live (c : Comment) : Bool := c.deletedAt.isNone && !c.isHardHidden

def Comment.anchors (c : Comment) : Bool := c.deletedAt.isSome && !c.isHardHidden

def renderedCommentIds (rows : List (CommentId × Comment)) : Finset CommentId :=
  closure rows Comment.anchors Comment.parentId Comment.live

def editedFlag (revisions : List Revision) (id : CommentId) : Bool :=
  revisions.any fun r => r.commentId = id

namespace Site

variable (s : Site)

/-- A task's comments, newest first, each with the nickname of its author. -/
def thread (task : TaskId) : List ((CommentId × Comment) × Text) :=
  (s.comments.scan (fun _ c => c.taskId = task) fun c => OrderDual.toDual c.createdAt).filterMap
    fun row => (s.users.get row.2.userId).map fun author => (row, author.nickname)

def rendered (task : TaskId) : Finset CommentId :=
  renderedCommentIds ((s.thread task).map Prod.fst)

def listComments (revisions : List Revision) (task : TaskId) (limit offset : ℕ) :
    Answer (List CommentPublic × ℕ) := do
  s.requireVisibleTask task
  .ok ((((s.thread task).filter fun row => row.1.1 ∈ s.rendered task).map fun row =>
    serializeRow row.1.1 row.1.2 row.2 (editedFlag revisions row.1.1)).drop offset |>.take limit,
    (s.rendered task).card)

def parentOf (id : CommentId) : Option CommentId := (s.comments.get id).bind Comment.parentId

variable {s} {task : TaskId} {id : CommentId}

theorem mem_thread {c : Comment} : (id, c) ∈ (s.thread task).map Prod.fst ↔
    s.comments.get id = some c ∧ c.taskId = task ∧ s.users.get c.userId ≠ none := by
  unfold thread
  rw [List.mem_map]
  constructor
  · rintro ⟨⟨row, nickname⟩, hmem, rfl⟩
    obtain ⟨⟨id', c'⟩, hscan, hmap⟩ := List.mem_filterMap.mp hmem
    obtain ⟨author, hauthor, heq⟩ := Option.map_eq_some_iff.mp hmap
    obtain ⟨hrow, rfl⟩ := Prod.mk.inj heq
    obtain ⟨rfl, rfl⟩ := Prod.mk.inj hrow
    obtain ⟨hget, htask⟩ := Table.mem_scan.mp hscan
    exact ⟨hget, htask, Option.ne_none_iff_exists'.mpr ⟨author, hauthor⟩⟩
  · rintro ⟨hget, htask, hauthor⟩
    obtain ⟨author, hauthor⟩ := Option.ne_none_iff_exists'.mp hauthor
    refine ⟨((id, c), author.nickname), List.mem_filterMap.mpr ⟨(id, c), ?_, ?_⟩, rfl⟩
    · exact Table.mem_scan.mpr ⟨hget, htask⟩
    · rw [hauthor]
      rfl

/-- A live comment of a known author renders. -/
theorem live_rendered {c : Comment} (hget : s.comments.get id = some c) (hlive : c.live = true)
    (hauthor : s.users.get c.userId ≠ none) : id ∈ s.rendered c.taskId := by
  refine subset_closure (List.mem_toFinset.mpr (List.mem_map.mpr ⟨(id, c), ?_, rfl⟩))
  exact List.mem_filter.mpr ⟨mem_thread.mpr ⟨hget, rfl, hauthor⟩, hlive⟩

theorem rendered_live (h : id ∈ s.rendered task) :
    ∃ c, s.comments.get id = some c ∧ c.isHardHidden = false ∧
      ∃ x cx, s.comments.get x = some cx ∧ cx.live = true ∧
        (x = id ∨ Below s.parentOf x id) := by
  refine closure_induction (P := fun id => ∃ c, s.comments.get id = some c ∧
    c.isHardHidden = false ∧ ∃ x cx, s.comments.get x = some cx ∧ cx.live = true ∧
      (x = id ∨ Below s.parentOf x id)) ?_ ?_ h
  · rintro ⟨x, c⟩ hrow hlive
    obtain ⟨hget, _, _⟩ := mem_thread.mp hrow
    obtain ⟨_, hshown⟩ := Bool.and_eq_true_iff.mp hlive
    exact ⟨c, hget, Bool.not_eq_true' _ |>.mp hshown, x, c, hget, hlive, Or.inl rfl⟩
  · rintro ⟨x, c⟩ hrow ⟨y, cy⟩ hchild hanchors hparent ⟨_, _, _, z, cz, hz, hlive, hbelow⟩
    obtain ⟨hget, _, _⟩ := mem_thread.mp hrow
    obtain ⟨hgety, _, _⟩ := mem_thread.mp hchild
    obtain ⟨_, hshown⟩ := Bool.and_eq_true_iff.mp hanchors
    have hedge : s.parentOf y = some x := by
      unfold parentOf
      rw [hgety]
      exact hparent
    refine ⟨c, hget, Bool.not_eq_true' _ |>.mp hshown, z, cz, hz, hlive, Or.inr ?_⟩
    rcases hbelow with rfl | hbelow
    · exact .single hedge
    · exact .tail hbelow hedge

end Site

end CampusQuest.Community
