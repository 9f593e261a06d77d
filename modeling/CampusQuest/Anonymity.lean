import CampusQuest.ReportListing
import Mathlib.Data.Set.Function
import Mathlib.Logic.Equiv.Basic

/-!
What the two lists tell about an author. Two sites are compared, of which one has other authors
behind some of its comments: the public list is the same when these are anonymous or deleted,
and the queue of the moderators up to the keys that stand for the authors.
-/

namespace CampusQuest.Community

open Forests Guards Tables

/-- The public list shows no difference between the rows. -/
structure SameFace (c c' : Comment) : Prop where
  taskId : c'.taskId = c.taskId
  parentId : c'.parentId = c.parentId
  isAnonymous : c'.isAnonymous = c.isAnonymous
  createdAt : c'.createdAt = c.createdAt
  updatedAt : c'.updatedAt = c.updatedAt
  deletedAt : c'.deletedAt = c.deletedAt
  isHardHidden : c'.isHardHidden = c.isHardHidden
  content : c.deletedAt = none → c'.content = c.content
  author : c.deletedAt = none → c.isAnonymous = false → c'.userId = c.userId

namespace SameFace

variable {c c' : Comment}

theorem live (h : SameFace c c') : c'.live = c.live := by
  unfold Comment.live
  rw [h.deletedAt, h.isHardHidden]

theorem anchors (h : SameFace c c') : c'.anchors = c.anchors := by
  unfold Comment.anchors
  rw [h.deletedAt, h.isHardHidden]

theorem serializeRow_eq (h : SameFace c c') {id : CommentId} {nickname nickname' : Text}
    {edited edited' : Bool}
    (hname : c.deletedAt = none → c.isAnonymous = false → nickname' = nickname)
    (hedited : c.deletedAt = none → edited' = edited) :
    serializeRow id c' nickname' edited' = serializeRow id c nickname edited := by
  unfold serializeRow
  rw [h.deletedAt]
  split
  next =>
    unfold serializeTombstoneComment
    rw [h.taskId, h.parentId, h.isAnonymous, h.createdAt, h.updatedAt]
  next hdeleted =>
    have hdeleted : c.deletedAt = none := by
      rw [Option.not_isSome_iff_eq_none] at hdeleted
      exact hdeleted
    have hdisplay : (if c.isAnonymous then anonymousAuthorDisplay else nickname') =
        if c.isAnonymous then anonymousAuthorDisplay else nickname := by
      split
      next => rfl
      next hnamed => exact hname hdeleted (Bool.eq_false_of_not_eq_true hnamed)
    unfold serializePublicComment
    rw [h.taskId, h.parentId, h.isAnonymous, h.createdAt, h.updatedAt, h.deletedAt,
      h.content hdeleted, hedited hdeleted, hdisplay]

end SameFace

namespace Site

/-- Other rows under the same keys. -/
def rewrite (s : Site) (g : CommentId → Comment → Comment) : Site :=
  { s with comments := s.comments.mapRows g }

variable {s : Site} {g : CommentId → Comment → Comment} {task : TaskId}

def rows (s : Site) (task : TaskId) : List (CommentId × Comment) :=
  s.comments.scan (fun _ c => c.taskId = task) fun c => OrderDual.toDual c.createdAt

theorem thread_eq (hauthors : ∀ id c, s.comments.get id = some c → s.users.get c.userId ≠ none) :
    s.thread task = (s.rows task).map fun row => (row, s.nicknameOf row.2.userId) := by
  unfold thread rows
  rw [← List.filterMap_eq_map]
  refine List.filterMap_congr fun row hrow => ?_
  obtain ⟨hget, _⟩ := Table.mem_scan.mp hrow
  obtain ⟨author, hauthor⟩ := Option.ne_none_iff_exists'.mp (hauthors row.1 row.2 hget)
  dsimp only [Function.comp_apply]
  unfold nicknameOf
  rw [hauthor]
  rfl

theorem rendered_eq
    (hauthors : ∀ id c, s.comments.get id = some c → s.users.get c.userId ≠ none) :
    s.rendered task = renderedCommentIds (s.rows task) := by
  unfold rendered
  rw [thread_eq hauthors, List.map_map]
  exact congrArg _ (List.map_id _)

variable (hface : ∀ id c, s.comments.get id = some c → SameFace c (g id c))
  (hauthors : ∀ id c, s.comments.get id = some c → s.users.get c.userId ≠ none)
  (hknown : ∀ id c, s.comments.get id = some c → s.users.get (g id c).userId ≠ none)

include hface

theorem rows_rewrite :
    (s.rewrite g).rows task = (s.rows task).map fun row => (row.1, g row.1 row.2) :=
  Table.scan_mapRows (fun id c hget => by rw [(hface id c hget).taskId])
    fun id c hget => by rw [(hface id c hget).createdAt]

theorem renderedCommentIds_rewrite :
    renderedCommentIds ((s.rewrite g).rows task) = renderedCommentIds (s.rows task) := by
  have hsame : ∀ row ∈ s.rows task, SameFace row.2 (g row.1 row.2) :=
    fun row hrow => hface row.1 row.2 (Table.mem_scan.mp hrow).1
  rw [rows_rewrite hface]
  exact closure_map (fun _ _ => rfl) (fun row hrow => (hsame row hrow).anchors)
    (fun row hrow => (hsame row hrow).parentId) fun row hrow => (hsame row hrow).live

include hauthors hknown

/-- Every page of the public list is the same when no row shows a difference. -/
theorem listComments_rewrite {revisions revisions' : List Revision}
    (hedited : ∀ id c, s.comments.get id = some c → c.deletedAt = none →
      editedFlag revisions' id = editedFlag revisions id) (limit offset : ℕ) :
    (s.rewrite g).listComments revisions' task limit offset =
      s.listComments revisions task limit offset := by
  have hrewritten : ∀ id c, (s.rewrite g).comments.get id = some c →
      (s.rewrite g).users.get c.userId ≠ none := by
    intro id c' hget'
    obtain ⟨c, hget, rfl⟩ := Option.map_eq_some_iff.mp ((Table.get_mapRows g id).symm.trans hget')
    exact hknown id c hget
  have hrendered : (s.rewrite g).rendered task = s.rendered task := by
    rw [rendered_eq hrewritten, rendered_eq hauthors, renderedCommentIds_rewrite hface]
  have hpage : (((s.rewrite g).thread task).filter fun row => row.1.1 ∈ s.rendered task).map
        (fun row => serializeRow row.1.1 row.1.2 row.2 (editedFlag revisions' row.1.1)) =
      ((s.thread task).filter fun row => row.1.1 ∈ s.rendered task).map
        fun row => serializeRow row.1.1 row.1.2 row.2 (editedFlag revisions row.1.1) := by
    rw [thread_eq hrewritten, thread_eq hauthors, rows_rewrite hface, List.map_map,
      List.filter_map, List.filter_map, List.map_map, List.map_map]
    refine List.map_congr_left fun row hrow => ?_
    obtain ⟨hget, _⟩ := Table.mem_scan.mp (List.mem_filter.mp hrow).1
    have hsame := hface row.1 row.2 hget
    refine hsame.serializeRow_eq (fun hlive hnamed => ?_) (hedited row.1 row.2 hget)
    exact congrArg s.nicknameOf (hsame.author hlive hnamed)
  unfold listComments
  rw [hrendered, hpage]
  rfl

end Site

def swapAuthor (X : Finset CommentId) (a b : UserId) (id : CommentId) (c : Comment) : Comment :=
  { c with userId := if id ∈ X then Equiv.swap a b c.userId else c.userId }

def CommentReportView.rename (ρ : Text → Text) (v : CommentReportView) : CommentReportView :=
  { v with comment := { v.comment with moderationKey := v.comment.moderationKey.map ρ } }

def renamePage (ρ : Text → Text) (page : List CommentReportView × ℕ) :
    List CommentReportView × ℕ :=
  (page.1.map (CommentReportView.rename ρ), page.2)

namespace QueueStore

def swapReporter (s : QueueStore) (X : Finset CommentId) (a b : UserId) (r : CommentReport) :
    CommentReport :=
  { r with
    reporterUserId :=
      if r.commentId ∈ X ∧
        (s.site.comments.get r.commentId).any (fun c => r.reporterUserId = c.userId) then
        Equiv.swap a b r.reporterUserId
      else r.reporterUserId }

/-- The site in which two users have changed places behind some comments. -/
def exchange (s : QueueStore) (X : Finset CommentId) (a b : UserId) : QueueStore :=
  { s with
    site := s.site.rewrite (swapAuthor X a b)
    reports := s.reports.mapRows fun _ r => s.swapReporter X a b r }

structure Joined (s : QueueStore) : Prop where
  authors : ∀ id c, s.site.comments.get id = some c → s.site.users.get c.userId ≠ none
  reporters : ∀ id r, s.reports.get id = some r → s.site.users.get r.reporterUserId ≠ none

def Reported (s : QueueStore) (task : TaskId) (a b : UserId) (id : CommentId) : Prop :=
  (∃ k r, s.reports.get k = some r ∧ r.commentId = id) ∧
  ∃ c, s.site.comments.get id = some c ∧ c.taskId = task ∧ c.isAnonymous = true ∧
    (c.userId = a ∨ c.userId = b)

/-- Either all that has been reported of the two is exchanged or none of it, and nobody has
reported a comment that becomes their own. -/
structure Indifferent (s : QueueStore) (task : TaskId) (X : Finset CommentId) (a b : UserId) :
    Prop where
  whole : (∀ id, s.Reported task a b id → id ∈ X) ∨ ∀ id, s.Reported task a b id → id ∉ X
  strangers : ∀ k r c, s.reports.get k = some r → r.commentId ∈ X →
    s.site.comments.get r.commentId = some c → r.reporterUserId = Equiv.swap a b c.userId →
    r.reporterUserId = c.userId

def authors (s : QueueStore) (task : TaskId) : Set UserId :=
  { u | ∃ id c, s.site.comments.get id = some c ∧ c.taskId = task ∧ c.userId = u }

end QueueStore

section Rows

variable {s : QueueStore} {keys : KeyMaterial} {revisions : List Revision} {task : TaskId}
  {X : Finset CommentId} {a b : UserId} {ρ : Text → Text} {id : ReportId} {r : CommentReport}
  {c : Comment}

/-- A row of the queue is the same up to its key when the reporter is folded in both, or is the
same one in both. -/
theorem reportView_rename {u v : UserId} {n n' name name' : Text} {edited : Bool}
    (hkey : c.isAnonymous = true →
      deriveModerationKey keys c.taskId u = ρ (deriveModerationKey keys c.taskId c.userId))
    (hname : c.isAnonymous = false → name' = name)
    (hfold : v = u ↔ r.reporterUserId = c.userId)
    (hreporter : r.reporterUserId ≠ c.userId → v = r.reporterUserId ∧ n' = n) :
    reportView keys id { r with reporterUserId := v } { c with userId := u } n' name' edited =
      (reportView keys id r c n name edited).rename ρ := by
  have hdisplay : (if c.isAnonymous then anonymousAuthorDisplay else name') =
      if c.isAnonymous then anonymousAuthorDisplay else name := by
    split
    next => rfl
    next hnamed => exact hname (Bool.eq_false_of_not_eq_true hnamed)
  have hmoderation : (if c.isAnonymous then some (deriveModerationKey keys c.taskId u) else none) =
      (if c.isAnonymous then some (deriveModerationKey keys c.taskId c.userId) else none).map ρ := by
    split
    next hanonymous => rw [hkey hanonymous, Option.map_some]
    next => rfl
  unfold reportView CommentReportView.rename serializeModerationComment
  dsimp only
  rw [hdisplay, hmoderation]
  by_cases hself : r.reporterUserId = c.userId
  · rw [if_pos (hfold.mpr hself), if_pos (hfold.mpr hself), if_pos hself, if_pos hself]
  · obtain ⟨rfl, rfl⟩ := hreporter hself
    rw [if_neg (fun h => hself (hfold.mp h)), if_neg (fun h => hself (hfold.mp h)), if_neg hself,
      if_neg hself]

theorem swap_known {users : Table UserId Participant} {u : UserId} (ha : users.get a ≠ none)
    (hb : users.get b ≠ none) (hu : users.get u ≠ none) : users.get (Equiv.swap a b u) ≠ none := by
  rw [Equiv.swap_apply_def]
  split
  next => exact hb
  next =>
    split
    next => exact ha
    next => exact hu

structure SameRow (keys : KeyMaterial) (ρ : Text → Text) (X : Finset CommentId) (a b : UserId)
    (r : CommentReport) (c : Comment) : Prop where
  key : c.isAnonymous = true →
    deriveModerationKey keys c.taskId (swapAuthor X a b r.commentId c).userId =
      ρ (deriveModerationKey keys c.taskId c.userId)
  stranger : r.commentId ∈ X → r.reporterUserId = Equiv.swap a b c.userId →
    r.reporterUserId = c.userId

theorem reportView_exchange_iff (hget : s.site.comments.get r.commentId = some c)
    (hX : r.commentId ∈ X → c.isAnonymous = true) {edited : Bool} :
    reportView keys id (s.swapReporter X a b r) (swapAuthor X a b r.commentId c)
        (s.site.nicknameOf (s.swapReporter X a b r).reporterUserId)
        (s.site.nicknameOf (swapAuthor X a b r.commentId c).userId) edited =
      (reportView keys id r c (s.site.nicknameOf r.reporterUserId) (s.site.nicknameOf c.userId)
        edited).rename ρ ↔
    SameRow keys ρ X a b r c := by
  have hreporter : (s.swapReporter X a b r).reporterUserId =
      if r.commentId ∈ X ∧ r.reporterUserId = c.userId then Equiv.swap a b r.reporterUserId
      else r.reporterUserId := by
    refine if_congr (and_congr_right fun _ => ?_) rfl rfl
    rw [hget, Option.any_some, decide_eq_true_eq]
  have hauthor : (swapAuthor X a b r.commentId c).userId =
      if r.commentId ∈ X then Equiv.swap a b c.userId else c.userId := rfl
  constructor
  · intro hsame
    constructor
    · intro hanonymous
      have hkey := congrArg (fun v => v.comment.moderationKey) hsame
      unfold reportView CommentReportView.rename serializeModerationComment at hkey
      dsimp only at hkey
      rw [if_pos (by exact hanonymous), if_pos hanonymous] at hkey
      exact Option.some.inj hkey
    · intro hmem hstranger
      by_contra hother
      have hfold := congrArg (fun v => v.reporterUserId) hsame
      unfold reportView CommentReportView.rename at hfold
      dsimp only at hfold
      have hv : (s.swapReporter X a b r).reporterUserId = r.reporterUserId :=
        hreporter.trans (if_neg fun h => hother h.2)
      have hu : (swapAuthor X a b r.commentId c).userId = r.reporterUserId :=
        (hauthor.trans (if_pos hmem)).trans hstranger.symm
      rw [if_pos (hv.trans hu.symm), if_neg hother] at hfold
      cases hfold
  · rintro ⟨hkey, hstranger⟩
    refine reportView_rename hkey (fun hnamed => ?_) ?_ fun hother => ?_
    · refine congrArg s.site.nicknameOf (hauthor.trans (if_neg fun hmem => ?_))
      rw [hX hmem] at hnamed
      cases hnamed
    · refine (iff_of_eq (congrArg₂ Eq hreporter hauthor)).trans ?_
      by_cases hmem : r.commentId ∈ X
      · by_cases hself : r.reporterUserId = c.userId
        · rw [if_pos ⟨hmem, hself⟩, if_pos hmem, hself]
          exact ⟨fun _ => rfl, fun _ => rfl⟩
        · rw [if_neg fun h => hself h.2, if_pos hmem]
          exact ⟨hstranger hmem, fun h => absurd h hself⟩
      · rw [if_neg fun h => hmem h.1, if_neg hmem]
    · have hsame := hreporter.trans (if_neg fun h => hother h.2)
      exact ⟨hsame, congrArg s.site.nicknameOf hsame⟩

theorem joinedView_exchange (hs : s.Joined) (ha : s.site.users.get a ≠ none)
    (hb : s.site.users.get b ≠ none) (hreport : s.reports.get id = some r)
    (hget : s.site.comments.get r.commentId = some c) :
    (s.exchange X a b).joinedView keys revisions (id, s.swapReporter X a b r) =
      some (reportView keys id (s.swapReporter X a b r) (swapAuthor X a b r.commentId c)
        (s.site.nicknameOf (s.swapReporter X a b r).reporterUserId)
        (s.site.nicknameOf (swapAuthor X a b r.commentId c).userId)
        (editedFlag revisions r.commentId)) := by
  have hget' : (s.exchange X a b).site.comments.get (s.swapReporter X a b r).commentId =
      some (swapAuthor X a b r.commentId c) :=
    (Table.get_mapRows _ _).trans (congrArg _ hget)
  have hreporter : s.site.users.get (s.swapReporter X a b r).reporterUserId ≠ none := by
    have hknown := hs.reporters id r hreport
    unfold QueueStore.swapReporter
    dsimp only
    split
    next => exact swap_known ha hb hknown
    next => exact hknown
  have hauthor : s.site.users.get (swapAuthor X a b r.commentId c).userId ≠ none := by
    have hknown := hs.authors r.commentId c hget
    unfold swapAuthor
    dsimp only
    split
    next => exact swap_known ha hb hknown
    next => exact hknown
  exact QueueStore.joinedView_eq hget' hreporter hauthor

theorem taskReports_exchange : (s.exchange X a b).taskReports task =
    (s.taskReports task).map fun row => (row.1, s.swapReporter X a b row.2) := by
  refine Table.scan_mapRows (f := fun r : CommentReport => OrderDual.toDual r.createdAt)
    (p := fun _ r => (s.site.comments.get r.commentId).any fun c => c.taskId = task)
    (fun id r _ => ?_) fun _ _ _ => rfl
  have hget : (s.exchange X a b).site.comments.get r.commentId =
      (s.site.comments.get r.commentId).map (swapAuthor X a b r.commentId) :=
    Table.get_mapRows _ _
  dsimp only [QueueStore.swapReporter]
  rw [hget, Option.any_map]
  rfl

/-- Rows that are joined are listed one by one. -/
theorem map_some_filterMap {α β : Type} {f : α → Option β} {l : List α}
    (h : ∀ e ∈ l, f e ≠ none) : (l.filterMap f).map some = l.map f := by
  rw [List.map_filterMap, ← List.filterMap_eq_map]
  refine List.filterMap_congr fun e he => ?_
  obtain ⟨x, hx⟩ := Option.ne_none_iff_exists'.mp (h e he)
  rw [hx, Option.map_some]
  exact congrArg some hx.symm

/-- The whole queue is the same up to its keys when every row is. -/
theorem views_exchange_iff (hs : s.Joined) (ha : s.site.users.get a ≠ none)
    (hb : s.site.users.get b ≠ none)
    (hX : ∀ id ∈ X, ∀ c, s.site.comments.get id = some c → c.isAnonymous = true) :
    ((s.exchange X a b).taskReports task).filterMap
        ((s.exchange X a b).joinedView keys revisions) =
      ((s.taskReports task).filterMap (s.joinedView keys revisions)).map
        (CommentReportView.rename ρ) ↔
    ∀ id r c, s.reports.get id = some r → s.site.comments.get r.commentId = some c →
      c.taskId = task → SameRow keys ρ X a b r c := by
  have hnew : ∀ row ∈ s.taskReports task, ((s.exchange X a b).joinedView keys revisions ∘
      fun row => (row.1, s.swapReporter X a b row.2)) row ≠ none := by
    rintro ⟨id, r⟩ hrow hnone
    obtain ⟨hreport, c, hget, _⟩ := QueueStore.mem_taskReports.mp hrow
    exact absurd ((joinedView_exchange hs ha hb hreport hget).symm.trans hnone) (by simp)
  have hold : ∀ row ∈ s.taskReports task,
      ((s.joinedView keys revisions row).map (CommentReportView.rename ρ)) ≠ none := by
    rintro ⟨id, r⟩ hrow hnone
    obtain ⟨hreport, c, hget, _⟩ := QueueStore.mem_taskReports.mp hrow
    rw [QueueStore.joinedView_eq hget (hs.reporters id r hreport)
      (hs.authors r.commentId c hget)] at hnone
    cases hnone
  have hrow (id : ReportId) (r : CommentReport) (c : Comment) (hreport : s.reports.get id = some r)
      (hget : s.site.comments.get r.commentId = some c) :
      ((s.exchange X a b).joinedView keys revisions (id, s.swapReporter X a b r) =
        (s.joinedView keys revisions (id, r)).map (CommentReportView.rename ρ)) ↔
      SameRow keys ρ X a b r c := by
    rw [joinedView_exchange hs ha hb hreport hget, QueueStore.joinedView_eq hget
      (hs.reporters id r hreport) (hs.authors r.commentId c hget), Option.map_some,
      Option.some.injEq]
    exact reportView_exchange_iff hget fun hmem => hX r.commentId hmem c hget
  rw [taskReports_exchange, List.filterMap_map, List.map_filterMap]
  constructor
  · intro hsame id r c hreport hget htask
    have hone := congrArg (List.map some) hsame
    rw [map_some_filterMap hnew, map_some_filterMap hold] at hone
    have hmem := QueueStore.mem_taskReports.mpr ⟨hreport, c, hget, htask⟩
    exact (hrow id r c hreport hget).mp (List.map_inj_left.mp hone (id, r) hmem)
  · intro hsame
    refine List.filterMap_congr fun row hmem => ?_
    obtain ⟨hreport, c, hget, htask⟩ := QueueStore.mem_taskReports.mp hmem
    exact (hrow row.1 row.2 c hreport hget).mpr (hsame row.1 row.2 c hreport hget htask)

/-- A page that shows an administrator the whole queue tells about every row. -/
theorem sameRows_of_page (hs : s.Joined) (htask : s.site.tasks.get task ≠ none)
    (ha : s.site.users.get a ≠ none) (hb : s.site.users.get b ≠ none)
    (hX : ∀ id ∈ X, ∀ c, s.site.comments.get id = some c → c.isAnonymous = true)
    {actor : Actor} {limit : ℕ} (hadmin : isAdmin actor.role = true)
    (hlimit : (s.taskReports task).length ≤ limit)
    (hpage : (s.exchange X a b).listTaskReports keys revisions actor task limit 0 =
      renamePage ρ <$> s.listTaskReports keys revisions actor task limit 0) :
    ∀ id r c, s.reports.get id = some r → s.site.comments.get r.commentId = some c →
      c.taskId = task → SameRow keys ρ X a b r c := by
  have hlimit' : ((s.exchange X a b).taskReports task).length ≤ limit := by
    rw [taskReports_exchange, List.length_map]
    exact hlimit
  rw [QueueStore.listTaskReports_whole hadmin htask hlimit,
    QueueStore.listTaskReports_whole (s := s.exchange X a b) hadmin htask hlimit'] at hpage
  exact (views_exchange_iff hs ha hb hX).mp (Prod.mk.inj (Except.ok.inj hpage)).1

/-- Every page is the same up to its keys when the whole queue is. -/
theorem listTaskReports_exchange
    (hviews : ((s.exchange X a b).taskReports task).filterMap
        ((s.exchange X a b).joinedView keys revisions) =
      ((s.taskReports task).filterMap (s.joinedView keys revisions)).map
        (CommentReportView.rename ρ)) (actor : Actor) (limit offset : ℕ) :
    (s.exchange X a b).listTaskReports keys revisions actor task limit offset =
      renamePage ρ <$> s.listTaskReports keys revisions actor task limit offset := by
  have hlength : ((s.exchange X a b).taskReports task).length = (s.taskReports task).length := by
    rw [taskReports_exchange, List.length_map]
  have hgate : (s.exchange X a b).site.requireTaskModerationSite actor task true .viewDenied =
      s.site.requireTaskModerationSite actor task true .viewDenied := rfl
  unfold QueueStore.listTaskReports
  rw [hviews, hlength, hgate, map_bind]
  refine bind_congr fun _ => ?_
  dsimp only
  split
  next => rfl
  next =>
    rw [← List.map_drop, ← List.map_take]
    rfl

theorem swap_eq_self_of_not {u : UserId} (hu : ¬ (u = a ∨ u = b)) : Equiv.swap a b u = u :=
  Equiv.swap_apply_of_ne_of_ne (fun h => hu (Or.inl h)) fun h => hu (Or.inr h)

/-- Distinct keys change places with their authors. -/
theorem key_swap {κ : UserId → Text} {S : Set UserId} (hκ : Set.InjOn κ (insert a (insert b S)))
    {u : UserId} (hu : u ∈ insert a (insert b S)) :
    κ (Equiv.swap a b u) = Equiv.swap (κ a) (κ b) (κ u) := by
  have ha : a ∈ insert a (insert b S) := Set.mem_insert a _
  have hb : b ∈ insert a (insert b S) := Set.mem_insert_of_mem a (Set.mem_insert b _)
  by_cases hua : u = a
  · rw [hua, Equiv.swap_apply_left, Equiv.swap_apply_left]
  · by_cases hub : u = b
    · rw [hub, Equiv.swap_apply_right, Equiv.swap_apply_right]
    · rw [Equiv.swap_apply_of_ne_of_ne hua hub, Equiv.swap_apply_of_ne_of_ne
        (fun h => hua (hκ hu ha h)) fun h => hub (hκ hu hb h)]

section Exchanges

variable (hX : ∀ id ∈ X, ∃ c, s.site.comments.get id = some c ∧ c.taskId = task ∧
    c.isAnonymous = true)
  (hkeys : Set.InjOn (deriveModerationKey keys task) (insert a (insert b (s.authors task))))

include hkeys

theorem Indifferent.sameRows (h : s.Indifferent task X a b) :
    ∃ ρ : Text → Text, Function.Injective ρ ∧
      ∀ id r c, s.reports.get id = some r → s.site.comments.get r.commentId = some c →
        c.taskId = task → SameRow keys ρ X a b r c := by
  have hstranger (id : ReportId) (r : CommentReport) (c : Comment)
      (hreport : s.reports.get id = some r) (hget : s.site.comments.get r.commentId = some c)
      (hmem : r.commentId ∈ X) (hown : r.reporterUserId = Equiv.swap a b c.userId) :
      r.reporterUserId = c.userId :=
    h.strangers id r c hreport hmem hget hown
  rcases h.whole with hall | hnone
  · refine ⟨Equiv.swap (deriveModerationKey keys task a) (deriveModerationKey keys task b),
      Equiv.injective _, fun id r c hreport hget htask => ⟨fun hanonymous => ?_,
        hstranger id r c hreport hget⟩⟩
    have hauthor : (swapAuthor X a b r.commentId c).userId = Equiv.swap a b c.userId := by
      unfold swapAuthor
      dsimp only
      split
      next => rfl
      next hout =>
        refine (swap_eq_self_of_not fun hown => hout ?_).symm
        exact hall r.commentId ⟨⟨id, r, hreport, rfl⟩, c, hget, htask, hanonymous, hown⟩
    rw [hauthor, htask]
    exact key_swap hkeys (Or.inr (Or.inr ⟨r.commentId, c, hget, htask, rfl⟩))
  · refine ⟨id, Function.injective_id, fun k r c hreport hget htask => ⟨fun hanonymous => ?_,
      hstranger k r c hreport hget⟩⟩
    have hauthor : (swapAuthor X a b r.commentId c).userId = c.userId := by
      unfold swapAuthor
      dsimp only
      split
      next hmem =>
        refine swap_eq_self_of_not fun hown => hnone r.commentId ?_ hmem
        exact ⟨⟨k, r, hreport, rfl⟩, c, hget, htask, hanonymous, hown⟩
      next => rfl
    rw [hauthor]
    rfl

include hX

theorem Indifferent.of_sameRows (hab : a ≠ b) (hρ : Function.Injective ρ)
    (h : ∀ id r c, s.reports.get id = some r → s.site.comments.get r.commentId = some c →
      c.taskId = task → SameRow keys ρ X a b r c) : s.Indifferent task X a b := by
  have hin (u : UserId) (hu : u = a ∨ u = b) : u ∈ insert a (insert b (s.authors task)) :=
    hu.imp_right Or.inl
  refine ⟨?_, fun k r c hreport hmem hget hown => ?_⟩
  · by_contra hmixed
    obtain ⟨hsome, hother⟩ := not_or.mp hmixed
    obtain ⟨x, hsome⟩ := not_forall.mp hsome
    obtain ⟨y, hother⟩ := not_forall.mp hother
    obtain ⟨hx, hout⟩ := Classical.not_imp.mp hsome
    obtain ⟨hy, hmem⟩ := Classical.not_imp.mp hother
    obtain hmem := not_not.mp hmem
    obtain ⟨⟨i, r, hreport, rfl⟩, c, hget, htask, hanonymous, hown⟩ := hx
    obtain ⟨⟨j, r', hreport', rfl⟩, c', hget', htask', hanonymous', hown'⟩ := hy
    have hkept := (h i r c hreport hget htask).key hanonymous
    have hswapped := (h j r' c' hreport' hget' htask').key hanonymous'
    have hauthor : (swapAuthor X a b r.commentId c).userId = c.userId := if_neg hout
    have hauthor' : (swapAuthor X a b r'.commentId c').userId = Equiv.swap a b c'.userId :=
      if_pos hmem
    rw [hauthor, htask] at hkept
    rw [hauthor', htask'] at hswapped
    by_cases hsame : c.userId = c'.userId
    · have hmoved : Equiv.swap a b c'.userId ≠ c'.userId :=
        Equiv.swap_apply_ne_self_iff.mpr ⟨hab, hown'⟩
      rw [← hsame, ← hkept] at hswapped
      refine hmoved ?_
      rw [← hsame]
      refine hkeys (hin _ ?_) (hin _ hown) hswapped
      rcases hown with hu | hu
      · exact Or.inr (by rw [hu, Equiv.swap_apply_left])
      · exact Or.inl (by rw [hu, Equiv.swap_apply_right])
    · have hplace : Equiv.swap a b c'.userId = c.userId := by
        rcases hown with hu | hu <;> rcases hown' with hu' | hu'
        · exact absurd (hu.trans hu'.symm) hsame
        · rw [hu', hu, Equiv.swap_apply_right]
        · rw [hu', hu, Equiv.swap_apply_left]
        · exact absurd (hu.trans hu'.symm) hsame
      rw [hplace] at hswapped
      exact hsame (hkeys (hin _ hown) (hin _ hown') (hρ (hkept.symm.trans hswapped)))
  · obtain ⟨c₀, hget₀, htask, _⟩ := hX r.commentId hmem
    obtain rfl : c₀ = c := Option.some.inj (hget₀.symm.trans hget)
    exact (h k r c₀ hreport hget htask).stranger hmem hown

end Exchanges

end Rows

/-- Deleted comments have other authors and other contents. -/
def Site.Redacted (s : Site) (g : CommentId → Comment → Comment) : Prop :=
  ∀ id c, s.comments.get id = some c → g id c = c ∨ c.deletedAt ≠ none ∧
    ∃ user deletedBy content, s.users.get user ≠ none ∧
      g id c = { c with userId := user, deletedBy := deletedBy, content := content }

/-- When two users change places behind anonymous comments of a task, every page of the public
list is the same. The queue of the moderators is the same on every page up to a renaming of its
keys exactly when all or none of what has been reported of the two is exchanged and nobody has
reported a comment that becomes their own. And the public list does not tell who wrote a deleted
comment, or what. -/
theorem authorship_stays_hidden (keys : KeyMaterial) (s : QueueStore) (revisions : List Revision)
    (task : TaskId) (X : Finset CommentId) (a b : UserId) (hs : s.Joined)
    (htask : s.site.tasks.get task ≠ none) (ha : s.site.users.get a ≠ none)
    (hb : s.site.users.get b ≠ none) (hab : a ≠ b)
    (hX : ∀ id ∈ X, ∃ c, s.site.comments.get id = some c ∧ c.taskId = task ∧
      c.isAnonymous = true)
    (hkeys : Set.InjOn (deriveModerationKey keys task) (insert a (insert b (s.authors task)))) :
    (∀ limit offset, (s.exchange X a b).site.listComments revisions task limit offset =
      s.site.listComments revisions task limit offset) ∧
    ((∃ ρ : Text → Text, Function.Injective ρ ∧ ∀ actor limit offset,
      (s.exchange X a b).listTaskReports keys revisions actor task limit offset =
        renamePage ρ <$> s.listTaskReports keys revisions actor task limit offset) ↔
      s.Indifferent task X a b) ∧
    (∀ g revisions', s.site.Redacted g →
      (∀ id c, s.site.comments.get id = some c → c.deletedAt = none →
        editedFlag revisions' id = editedFlag revisions id) →
      ∀ limit offset, (s.site.rewrite g).listComments revisions' task limit offset =
        s.site.listComments revisions task limit offset) := by
  have hanonymous : ∀ id ∈ X, ∀ c, s.site.comments.get id = some c → c.isAnonymous = true := by
    intro id hmem c hget
    obtain ⟨c₀, hget₀, _, hanonymous⟩ := hX id hmem
    obtain rfl : c₀ = c := Option.some.inj (hget₀.symm.trans hget)
    exact hanonymous
  refine ⟨?_, ⟨?_, fun hindifferent => ?_⟩, fun g revisions' hredacted hedited => ?_⟩
  · refine Site.listComments_rewrite (fun id c hget => ?_) hs.authors (fun id c hget => ?_)
      fun _ _ _ _ => rfl
    · refine ⟨rfl, rfl, rfl, rfl, rfl, rfl, rfl, fun _ => rfl, fun _ hnamed => if_neg fun hmem => ?_⟩
      rw [hanonymous id hmem c hget] at hnamed
      cases hnamed
    · unfold swapAuthor
      dsimp only
      split
      next => exact swap_known ha hb (hs.authors id c hget)
      next => exact hs.authors id c hget
  · rintro ⟨ρ, hρ, hpages⟩
    have hpage := hpages ⟨0, .admin⟩ (s.taskReports task).length 0
    exact Indifferent.of_sameRows hX hkeys hab hρ
      (sameRows_of_page hs htask ha hb hanonymous rfl le_rfl hpage)
  · obtain ⟨ρ, hρ, hrows⟩ := Indifferent.sameRows hkeys hindifferent
    exact ⟨ρ, hρ, listTaskReports_exchange ((views_exchange_iff hs ha hb hanonymous).mpr hrows)⟩
  · refine Site.listComments_rewrite (fun id c hget => ?_) hs.authors (fun id c hget => ?_) hedited
    · rcases hredacted id c hget with hsame | ⟨hdeleted, user, deletedBy, content, _, hsame⟩
      · rw [hsame]
        exact ⟨rfl, rfl, rfl, rfl, rfl, rfl, rfl, fun _ => rfl, fun _ _ => rfl⟩
      · rw [hsame]
        exact ⟨rfl, rfl, rfl, rfl, rfl, rfl, rfl, fun h => absurd h hdeleted,
          fun h => absurd h hdeleted⟩
    · rcases hredacted id c hget with hsame | ⟨_, user, deletedBy, content, hknown, hsame⟩
      · rw [hsame]
        exact hs.authors id c hget
      · rw [hsame]
        exact hknown

section Example

def lastDigits : KeyMaterial where
  secret := []
  hmacDigest _ message := message
  hmacHexdigest _ message := "000000000000000".toList ++ message.getLast?.toList
  uuid n := [Char.ofNat (48 + n)]

def whisper : Comment := ⟨5, 1, none, ['w'], true, 0, 0, none, none, none, false⟩

/-- Two anonymous comments of one author, both reported by the same user. -/
def reportedTwice (reporter : UserId) : QueueStore where
  site :=
    { users := ((Table.empty.put 1 ⟨.student, .active, ['a']⟩).put 2
        ⟨.student, .active, ['b']⟩).put 7 ⟨.student, .active, ['c']⟩
      tasks := Table.empty.put 5 ⟨9, .published⟩
      collaborators := .empty
      comments := (Table.empty.put 3 whisper).put 4 whisper }
  reports :=
    (Table.empty.put 0 ⟨3, reporter, .spam, none, .opened, none, none, 8, 8⟩).put 1
      ⟨4, reporter, .spam, none, .opened, none, none, 9, 9⟩
  audit := []

theorem reportedTwice_comment {reporter : UserId} {id : CommentId} {c : Comment}
    (h : (reportedTwice reporter).site.comments.get id = some c) : c = whisper := by
  rcases Table.get_put_eq_some h with ⟨_, rfl⟩ | ⟨_, h⟩
  · rfl
  · rcases Table.get_put_eq_some h with ⟨_, rfl⟩ | ⟨_, h⟩
    · rfl
    · cases h

theorem reportedTwice_report {reporter : UserId} {id : ReportId} {r : CommentReport}
    (h : (reportedTwice reporter).reports.get id = some r) : r.reporterUserId = reporter := by
  rcases Table.get_put_eq_some h with ⟨_, rfl⟩ | ⟨_, h⟩
  · rfl
  · rcases Table.get_put_eq_some h with ⟨_, rfl⟩ | ⟨_, h⟩
    · rfl
    · cases h

theorem reportedTwice_known {reporter user : UserId} (h : user = 1 ∨ user = 2 ∨ user = 7) :
    (reportedTwice reporter).site.users.get user ≠ none := by
  rcases h with rfl | rfl | rfl
  · exact fun hnone => nomatch hnone
  · exact fun hnone => nomatch hnone
  · exact fun hnone => nomatch hnone

theorem reportedTwice_anonymous {reporter : UserId} {X : Finset CommentId} :
    ∀ id ∈ X, ∀ c, (reportedTwice reporter).site.comments.get id = some c →
      c.isAnonymous = true := by
  intro id _ c hget
  rw [reportedTwice_comment hget]
  rfl

theorem reportedTwice_joined {reporter : UserId} (h : reporter = 1 ∨ reporter = 2 ∨ reporter = 7) :
    (reportedTwice reporter).Joined where
  authors id c hget := by
    rw [reportedTwice_comment hget]
    exact reportedTwice_known (by decide)
  reporters id r hget := by
    rw [reportedTwice_report hget]
    exact reportedTwice_known h

/-- The report of the one who becomes the author loses its reporter, and two comments of one
author come to have two keys when one of them only is exchanged. -/
theorem exchange_shows :
    (∀ ρ : Text → Text, Function.Injective ρ →
      ((reportedTwice 2).exchange {3, 4} 1 2).listTaskReports lastDigits [] ⟨0, .admin⟩ 5 20 0 ≠
        renamePage ρ <$> (reportedTwice 2).listTaskReports lastDigits [] ⟨0, .admin⟩ 5 20 0) ∧
    (∀ ρ : Text → Text, Function.Injective ρ →
      ((reportedTwice 7).exchange {3} 1 2).listTaskReports lastDigits [] ⟨0, .admin⟩ 5 20 0 ≠
        renamePage ρ <$> (reportedTwice 7).listTaskReports lastDigits [] ⟨0, .admin⟩ 5 20 0) := by
  constructor
  · intro ρ _ hpage
    have hlength : ((reportedTwice 2).taskReports 5).length ≤ 20 :=
      Table.length_scan_le.trans (by decide)
    have hrows := sameRows_of_page (reportedTwice_joined (by decide)) (by exact fun h => nomatch h)
      (reportedTwice_known (by decide)) (reportedTwice_known (by decide)) reportedTwice_anonymous
      rfl hlength hpage
    have hself := (hrows 0 _ whisper rfl rfl rfl).stranger (by decide) rfl
    exact absurd hself (by decide)
  · intro ρ _ hpage
    have hlength : ((reportedTwice 7).taskReports 5).length ≤ 20 :=
      Table.length_scan_le.trans (by decide)
    have hrows := sameRows_of_page (reportedTwice_joined (by decide)) (by exact fun h => nomatch h)
      (reportedTwice_known (by decide)) (reportedTwice_known (by decide)) reportedTwice_anonymous
      rfl hlength hpage
    have hmoved := (hrows 0 _ whisper rfl rfl rfl).key rfl
    have hkept := (hrows 1 _ whisper rfl rfl rfl).key rfl
    exact absurd (hmoved.trans hkept.symm) (by decide)

/-- When both comments are exchanged, and somebody else has reported them, the queue is the same
up to its keys. -/
theorem whole_exchange_hidden : ∃ ρ : Text → Text, Function.Injective ρ ∧
    ∀ actor limit offset, ((reportedTwice 7).exchange {3, 4} 1 2).listTaskReports lastDigits []
      actor 5 limit offset =
        renamePage ρ <$> (reportedTwice 7).listTaskReports lastDigits [] actor 5 limit offset := by
  have hX : ∀ id ∈ ({3, 4} : Finset CommentId), ∃ c,
      (reportedTwice 7).site.comments.get id = some c ∧ c.taskId = 5 ∧ c.isAnonymous = true := by
    intro id hmem
    rcases Finset.mem_insert.mp hmem with rfl | hmem
    · exact ⟨whisper, rfl, rfl, rfl⟩
    · obtain rfl := Finset.mem_singleton.mp hmem
      exact ⟨whisper, rfl, rfl, rfl⟩
  have hauthors : ∀ u ∈ insert 1 (insert 2 ((reportedTwice 7).authors 5)), u = 1 ∨ u = 2 := by
    rintro u (rfl | rfl | ⟨id, c, hget, _, rfl⟩)
    · exact Or.inl rfl
    · exact Or.inr rfl
    · rw [reportedTwice_comment hget]
      exact Or.inl rfl
  have hkeys : Set.InjOn (deriveModerationKey lastDigits 5)
      (insert 1 (insert 2 ((reportedTwice 7).authors 5))) := by
    intro u hu v hv hsame
    rcases hauthors u hu with rfl | rfl <;> rcases hauthors v hv with rfl | rfl
    · rfl
    · exact absurd hsame (by decide)
    · exact absurd hsame (by decide)
    · rfl
  have hindifferent : (reportedTwice 7).Indifferent 5 {3, 4} 1 2 := by
    constructor
    · refine Or.inl fun id hreported => ?_
      obtain ⟨_, c, hget, _⟩ := hreported
      rcases Table.get_put_eq_some hget with ⟨rfl, _⟩ | ⟨_, hold⟩
      · decide
      · rcases Table.get_put_eq_some hold with ⟨rfl, _⟩ | ⟨_, hnone⟩
        · decide
        · cases hnone
    · intro k r c hreport _ hget hown
      rw [reportedTwice_report hreport, reportedTwice_comment hget] at hown
      exact absurd hown (by decide)
  exact (authorship_stays_hidden lastDigits (reportedTwice 7) [] 5 {3, 4} 1 2
    (reportedTwice_joined (by decide)) (fun h => nomatch h) (reportedTwice_known (by decide))
    (reportedTwice_known (by decide)) (by decide) hX hkeys).2.1.mpr hindifferent

end Example

end CampusQuest.Community
