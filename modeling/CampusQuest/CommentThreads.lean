import CampusQuest.CommentListing

/-!
The public thread of a task as a whole. What renders is the least set that the rule of the
tombstones allows, whatever the parents are, and the pages of the list are cut from one list of it,
newest first.
-/

namespace CampusQuest.Community

open Forests Guards Tables

def renderLoop (rows : List (CommentId × Comment)) (fuel : ℕ) : Option (Finset CommentId) :=
  settle rows Comment.anchors Comment.parentId fuel
    ((rows.filter fun r => r.2.live).map Prod.fst).toFinset

/-- Live comments render, and so does a deleted one, not hidden, with a child that renders. -/
abbrev RenderClosed (rows : List (CommentId × Comment)) (shown : Set CommentId) : Prop :=
  Closed rows Comment.anchors Comment.parentId Comment.live shown

namespace Site

variable (s : Site) (revisions : List Revision) (task : TaskId)

def publicThread : List CommentPublic :=
  ((s.thread task).filter fun row => row.1.1 ∈ s.rendered task).map fun row =>
    serializeRow row.1.1 row.1.2 row.2 (editedFlag revisions row.1.1)

/-- Newest first, and in the order of the ids among those of one instant. -/
def NewestFirst (a b : CommentPublic) : Prop :=
  b.createdAt < a.createdAt ∨ a.createdAt = b.createdAt ∧ a.id < b.id

variable {s revisions task}

theorem serializeRow_face (id : CommentId) (c : Comment) (nickname : Text) (edited : Bool) :
    (serializeRow id c nickname edited).id = id ∧
      (serializeRow id c nickname edited).createdAt = c.createdAt := by
  unfold serializeRow
  split <;> exact ⟨rfl, rfl⟩

theorem publicThread_ordered : (s.publicThread revisions task).Pairwise NewestFirst := by
  have hthread : (s.thread task).Pairwise fun a b =>
      b.1.2.createdAt < a.1.2.createdAt ∨
        a.1.2.createdAt = b.1.2.createdAt ∧ a.1.1 < b.1.1 := by
    unfold thread
    refine List.Pairwise.filterMap _ (fun a b hab row hrow row' hrow' => ?_)
      Table.scan_pairwise
    obtain ⟨_, _, rfl⟩ := Option.map_eq_some_iff.mp hrow
    obtain ⟨_, _, rfl⟩ := Option.map_eq_some_iff.mp hrow'
    exact hab
  unfold publicThread
  rw [List.pairwise_map]
  refine (hthread.filter _).imp fun {a b} hab => ?_
  unfold NewestFirst
  rw [(serializeRow_face _ _ _ _).1, (serializeRow_face _ _ _ _).1, (serializeRow_face _ _ _ _).2,
    (serializeRow_face _ _ _ _).2]
  exact hab

theorem publicThread_ids {id : CommentId} :
    id ∈ (s.publicThread revisions task).map CommentPublic.id ↔ id ∈ s.rendered task := by
  unfold publicThread
  rw [List.map_map, List.mem_map]
  constructor
  · rintro ⟨row, hrow, rfl⟩
    dsimp only [Function.comp_apply]
    rw [(serializeRow_face _ _ _ _).1]
    exact of_decide_eq_true (List.mem_filter.mp hrow).2
  · intro hid
    obtain ⟨⟨id', c⟩, hrow, rfl⟩ := List.mem_map.mp (List.mem_toFinset.mp (closure_subset hid))
    obtain ⟨row, hthread, heq⟩ := List.mem_map.mp hrow
    refine ⟨row, List.mem_filter.mpr ⟨hthread, decide_eq_true (heq ▸ hid)⟩, ?_⟩
    dsimp only [Function.comp_apply]
    rw [(serializeRow_face _ _ _ _).1, heq]

theorem publicThread_nodup : ((s.publicThread revisions task).map CommentPublic.id).Nodup := by
  have hscan : (s.comments.scan (fun _ c => c.taskId = task) fun c =>
      OrderDual.toDual c.createdAt).Pairwise fun a b => a.1 ≠ b.1 := by
    refine Table.scan_pairwise.imp_of_mem ?_
    rintro ⟨ka, ca⟩ ⟨kb, cb⟩ ha hb hab (rfl : ka = kb)
    -- Two rows under one id are the same row.
    have hget := (Table.mem_scan.mp ha).1
    rw [(Table.mem_scan.mp hb).1] at hget
    cases hget
    rcases hab with hlt | ⟨_, hlt⟩
    · exact lt_irrefl _ hlt
    · exact lt_irrefl _ hlt
  have hrows : (s.thread task).Pairwise fun a b => a.1.1 ≠ b.1.1 := by
    unfold thread
    refine List.Pairwise.filterMap _ (fun a b hab row hrow row' hrow' => ?_) hscan
    obtain ⟨_, _, rfl⟩ := Option.map_eq_some_iff.mp hrow
    obtain ⟨_, _, rfl⟩ := Option.map_eq_some_iff.mp hrow'
    exact hab
  unfold publicThread
  rw [List.map_map]
  refine List.pairwise_map.mpr ((hrows.filter _).imp fun {a b} hne => ?_)
  dsimp only [Function.comp_apply]
  rw [(serializeRow_face _ _ _ _).1, (serializeRow_face _ _ _ _).1]
  exact hne

theorem publicThread_length : (s.publicThread revisions task).length = (s.rendered task).card := by
  have hids : ((s.publicThread revisions task).map CommentPublic.id).toFinset = s.rendered task := by
    ext id
    rw [List.mem_toFinset]
    exact publicThread_ids
  rw [← hids, List.toFinset_card_of_nodup publicThread_nodup, List.length_map]

/-- A page is cut from the thread. -/
theorem listComments_eq (limit offset : ℕ) :
    s.listComments revisions task limit offset = (do
      s.requireVisibleTask task
      .ok (((s.publicThread revisions task).drop offset).take limit,
        (s.publicThread revisions task).length)) := by
  rw [publicThread_length]
  rfl

end Site

/-- Pages of one size, one after the other, are the list up to the end of the last of them. -/
theorem flatMap_pages {α : Type*} (l : List α) (limit pages : ℕ) :
    (List.range pages).flatMap (fun k => (l.drop (k * limit)).take limit) =
      l.take (pages * limit) := by
  induction pages with
  | zero => simp
  | succ pages ih =>
    rw [List.range_succ, List.flatMap_append, ih, List.flatMap_singleton, Nat.succ_mul,
      List.take_add]

end CampusQuest.Community
