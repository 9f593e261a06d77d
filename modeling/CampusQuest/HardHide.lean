import CampusQuest.CommentService

/-!
Whether a hard hide takes all the replies below a comment out of the public list. A reply that
was checked before the hide may be written after it, and a hide writes the rows that it has read:
what must hold at these two steps, and that nothing else matters.
-/

namespace CampusQuest.Community

open CommentRequest Forests Locking Runs Tables

def CommentRequest.collected : CommentRequest → List CommentId
  | collecting _ _ _ _ subtree _ | flushed _ _ _ _ subtree => subtree.map Prod.fst
  | _ => []

namespace CommentStore

variable (s : CommentStore)

def HardHidden (id : CommentId) : Prop :=
  ∃ row, s.site.comments.get id = some row ∧ row.isHardHidden = true

def Live (id : CommentId) : Prop :=
  ∃ row, s.site.comments.get id = some row ∧ row.live = true

/-- Once the comment is hidden, nothing below it renders. -/
def HidesAll (root : CommentId) : Prop :=
  s.HardHidden root → ∀ id task, Below s.site.parentOf id root → id ∉ s.site.rendered task

/-- No reply is written below the hidden comment, and when a hide takes the comment along, every
live comment below it is among the rows that the hide has read. -/
def KeepsHidden (root : CommentId) (m : CommentRequest) : CommentEvent → Prop
  | .created _ parent => ∀ p, parent = some p → s.HardHidden root →
    p ≠ root ∧ ¬ Below s.site.parentOf p root
  | .hidden _ => root ∈ m.collected →
    ∀ id, s.Live id → Below s.site.parentOf id root → id ∈ m.collected
  | _ => True

end CommentStore

section Steps

variable {maxLength : ℕ} {s s' : CommentStore} {m m' : CommentRequest} {ev : CommentEvent}
  {id root : CommentId}

theorem Later.live {c c' : Comment} (h : Later c c') (hlive : c'.live = true) :
    c.live = true := by
  obtain ⟨hdeleted, hhidden⟩ := Bool.and_eq_true_iff.mp hlive
  refine Bool.and_eq_true_iff.mpr ⟨?_, ?_⟩
  · by_contra hc
    exact h.deletedAt (fun hnone => hc (Option.isNone_iff_eq_none.mpr hnone))
      (Option.isNone_iff_eq_none.mp hdeleted)
  · by_contra hc
    have hshown : c.isHardHidden = true := by simpa using hc
    rw [h.hidden hshown] at hhidden
    cases hhidden

/-- A tombstone renders only while something live is below it, so what counts is what is live. -/
theorem hidesAll_iff (hs : s.Consistent) : s.HidesAll root ↔
    (s.HardHidden root → ∀ id, s.Live id → ¬ Below s.site.parentOf id root) := by
  constructor
  · rintro h hroot id ⟨row, hget, hlive⟩ hbelow
    exact h hroot id row.taskId hbelow (Site.live_rendered hget hlive (hs.authors id row hget))
  · intro h hroot id task hbelow hrendered
    obtain ⟨_, _, _, x, row, hget, hlive, rfl | hx⟩ := Site.rendered_live hrendered
    · exact h hroot x ⟨row, hget, hlive⟩ hbelow
    · exact h hroot x ⟨row, hget, hlive⟩ (hx.trans hbelow)

/-- A comment is hidden by a hide that has read it, and by nothing else. -/
theorem CommentCommit.hardHidden_iff (h : CommentCommit maxLength m s ev m' s')
    (hknown : s.Knows m) : s'.HardHidden id ↔
      s.HardHidden id ∨ (∃ root, ev = .hidden root) ∧ id ∈ m.collected := by
  constructor
  · rintro ⟨row', hget', hhidden⟩
    have hput {k : CommentId} {row row' c : Comment} (hrow : s.site.comments.get k = some row)
        (hc : (s.site.comments.put k row').get id = some c)
        (hsame : row'.isHardHidden = row.isHardHidden) (hhidden : c.isHardHidden = true) :
        s.HardHidden id := by
      rcases Table.get_put_eq_some hc with ⟨rfl, rfl⟩ | ⟨_, hold⟩
      · exact ⟨row, hrow, hsame.symm.trans hhidden⟩
      · exact ⟨c, hold, hhidden⟩
    cases h with
    | created d k now hfresh =>
      rcases Table.get_put_eq_some hget' with ⟨rfl, rfl⟩ | ⟨_, hold⟩
      · cases hhidden
      · exact Or.inl ⟨row', hold, hhidden⟩
    | edited => exact Or.inl (hput hknown hget' rfl hhidden)
    | deleted => exact Or.inl (hput hknown hget' rfl hhidden)
    | moderated => exact Or.inl (hput hknown hget' rfl hhidden)
    | hidden actor reason top task subtree now stamp =>
      obtain ⟨row, hget, rfl⟩ := Option.map_eq_some_iff.mp (get_hide.symm.trans hget')
      split at hhidden
      next seen hlookup =>
        exact Or.inr ⟨⟨top, rfl⟩, List.mem_map_of_mem (mem_of_lookup hlookup)⟩
      next => exact Or.inl ⟨row, hget, hhidden⟩
    | _ => exact Or.inl ⟨row', hget', hhidden⟩
  · rintro (⟨row, hget, hhidden⟩ | ⟨⟨root, rfl⟩, hmem⟩)
    · obtain ⟨row', hget', hlater⟩ := h.later hknown hget
      exact ⟨row', hget', hlater.hidden hhidden⟩
    · cases h with
      | hidden actor reason top task subtree now stamp =>
        obtain ⟨seen, hlookup⟩ := lookup_of_mem hmem
        obtain ⟨row, hget, hlater⟩ := hknown.later id seen (mem_of_lookup hlookup)
        refine ⟨_, get_hide.trans (congrArg _ hget), ?_⟩
        dsimp only
        rw [hlookup]
        exact (hardHide_hidden now stamp actor.userId (hardHiddenReason reason) hlater).1

/-- A hide has read its own comment. -/
theorem CommentCommit.root_collected (h : CommentCommit maxLength m s (.hidden root) m' s')
    (hknown : s.Knows m) : root ∈ m.collected := by
  cases h with
  | hidden actor reason _ task subtree now stamp =>
    obtain ⟨seen, hseen⟩ := hknown.root
    exact List.mem_map_of_mem (f := Prod.fst) hseen

theorem CommentCommit.live_before (h : CommentCommit maxLength m s ev m' s') (hknown : s.Knows m)
    (hlive : s'.Live id) : s.Live id ∨ ∃ parent, ev = .created id parent := by
  obtain ⟨row', hget', hrow'⟩ := hlive
  cases hget : s.site.comments.get id with
  | some row =>
    obtain ⟨row₁, hget₁, hlater⟩ := h.later hknown hget
    obtain rfl : row₁ = row' := Option.some.inj (hget₁.symm.trans hget')
    exact Or.inl ⟨row, hget, hlater.live hrow'⟩
  | none =>
    obtain ⟨d, _, _, hev, _⟩ := h.born hknown hget hget'
    exact Or.inr ⟨d.parentId, hev⟩

theorem CommentStore.HardHidden.not_live (h : s.HardHidden id) : ¬ s.Live id := by
  obtain ⟨row, hget, hhidden⟩ := h
  rintro ⟨row', hget', hlive⟩
  obtain rfl : row = row' := Option.some.inj (hget.symm.trans hget')
  obtain ⟨_, hshown⟩ := Bool.and_eq_true_iff.mp hlive
  rw [hhidden] at hshown
  cases hshown

/-- A commit keeps what a comment hides exactly when its condition holds. -/
theorem CommentCommit.hidesAll_iff (h : CommentCommit maxLength m s ev m' s')
    (hs : s.Consistent) (hknown : s.Knows m) (hbefore : s.HidesAll root) :
    s'.HidesAll root ↔ s.KeepsHidden root m ev := by
  have hquiet := (Community.hidesAll_iff hs).mp hbefore
  rw [Community.hidesAll_iff (h.consistent hs hknown)]
  have hnothing (hcreates : ∀ id parent, ev ≠ .created id parent)
      (hhides : ∀ root, ev ≠ .hidden root) (hroot : s'.HardHidden root) (x : CommentId)
      (hx : s'.Live x) : ¬ Below s'.site.parentOf x root := by
    obtain hroot | ⟨⟨top, hev⟩, _⟩ := (h.hardHidden_iff hknown).mp hroot
    · obtain hx | ⟨parent, hev⟩ := h.live_before hknown hx
      · obtain hsame | ⟨id, d, _, _, hev, _⟩ := h.parentOf_cases hknown
        · rw [hsame]
          exact hquiet hroot x hx
        · exact absurd hev (hcreates id d.parentId)
      · exact absurd hev (hcreates x parent)
    · exact absurd hev (hhides top)
  cases ev with
  | created id parent =>
    have hidden_before (hroot : s'.HardHidden root) : s.HardHidden root :=
      ((h.hardHidden_iff hknown).mp hroot).resolve_right fun ⟨⟨_, hev⟩, _⟩ => (by cases hev)
    have hidden_after (hroot : s.HardHidden root) : s'.HardHidden root :=
      (h.hardHidden_iff hknown).mpr (Or.inl hroot)
    have hlive : ∀ x, s'.Live x → s.Live x ∨ x = id := by
      intro x hx
      refine (h.live_before hknown hx).imp_right ?_
      rintro ⟨_, hev⟩
      exact (CommentEvent.created.inj hev).1.symm
    cases h with
    | created d _ now hfresh =>
      obtain ⟨hnone, hleaf, hself⟩ := created_leaf hs hknown hfresh
      have hbelow (x : CommentId) : Below (s.create id d now).site.parentOf x root ↔
          Below s.site.parentOf x root ∨
            x = id ∧ ∃ p, d.parentId = some p ∧ (p = root ∨ Below s.site.parentOf p root) := by
        rw [parentOf_create]
        exact below_leaf hnone hleaf hself
      constructor
      · intro hafter p hp hroot
        refine not_or.mp fun hplace => hafter (hidden_after hroot) id ?_
          ((hbelow id).mpr (Or.inr ⟨rfl, p, hp, hplace⟩))
        exact ⟨d.row now, Table.get_put_self _ _ _, rfl⟩
      · intro hplace hroot x hx hxroot
        rcases (hbelow x).mp hxroot with hold | ⟨rfl, p, hp, hnew⟩
        · rcases hlive x hx with hx | rfl
          · exact hquiet (hidden_before hroot) x hx hold
          · obtain ⟨y, hparent, _⟩ := below_iff.mp hold
            rw [hnone] at hparent
            cases hparent
        · exact not_or.mpr (hplace p hp (hidden_before hroot)) hnew
  | hidden top =>
    have hsame : s'.site.parentOf = s.site.parentOf :=
      (h.parentOf_cases hknown).resolve_right fun ⟨_, _, _, _, hev, _⟩ => (by cases hev)
    rw [hsame]
    constructor
    · intro hafter hread id ⟨row, hget, hrow⟩ hbelow
      by_contra hmissed
      refine hafter ((h.hardHidden_iff hknown).mpr (Or.inr ⟨⟨top, rfl⟩, hread⟩)) id
        ⟨row, h.get_unlocked hget fun hlocked => hmissed ?_, hrow⟩ hbelow
      have htop := h.root_collected hknown
      cases h with
      | hidden actor reason _ task subtree now stamp =>
        rcases hlocked with rfl | hmem
        · exact htop
        · exact hmem
    · intro hread hroot x hx hbelow
      have hxlive : s.Live x :=
        (h.live_before hknown hx).resolve_right fun ⟨_, hev⟩ => (by cases hev)
      rcases (h.hardHidden_iff hknown).mp hroot with hroot | ⟨_, hmem⟩
      · exact hquiet hroot x hxlive hbelow
      · exact CommentStore.HardHidden.not_live ((h.hardHidden_iff hknown).mpr
          (Or.inr ⟨⟨top, rfl⟩, hread hmem x hxlive hbelow⟩)) hx
  | _ => exact iff_of_true (hnothing (fun _ _ => nofun) fun _ => nofun) trivial

end Steps

section Runs

variable {ι : Type*} [DecidableEq ι]

def HideHolds (root : CommentId) (c : Config ι CommentStore CommentRequest)
    (a : Move ι CommentEvent) : Prop :=
  ∀ ev, a.2 = some ev → c.store.KeepsHidden root (c.proc a.1) ev

/-- In every run a hide makes its comment hidden, for good; and while a comment is hidden nothing
below it renders, exactly as long as no reply is written below it and every hide that takes it
along has read all that is live below it. -/
theorem hard_hide_complete_iff (maxLength : ℕ) (root : CommentId)
    {c c' : Config ι CommentStore CommentRequest}
    {l : List (Config ι CommentStore CommentRequest × Move ι CommentEvent ×
      Config ι CommentStore CommentRequest)}
    (hc : (commentSystem maxLength ι).Reach c) (hrun : (commentSystem maxLength ι).Run c l c')
    (hbefore : c.store.HidesAll root) :
    (∀ e ∈ l, e.2.1.2 = some (.hidden root) → e.2.2.store.HardHidden root) ∧
    (c.store.HardHidden root → c'.store.HardHidden root) ∧
    ((∀ e ∈ l, e.2.2.store.HidesAll root) ↔ ∀ e ∈ l, HideHolds root e.1 e.2.1) := by
  refine ⟨?_, fun hroot => ?_, ?_⟩
  · intro e he hlabel
    obtain ⟨_, hknown, m', hcommit⟩ :=
      (commentProtocol_sound maxLength).event (fun _ h => h) hc hrun he hlabel
    have hcommit : CommentCommit maxLength _ _ _ m' _ := hcommit
    exact (hcommit.hardHidden_iff hknown).mpr
      (Or.inr ⟨⟨root, rfl⟩, hcommit.root_collected hknown⟩)
  · refine hrun.keeps (P := fun c => c.store.HardHidden root)
      (fun c₁ a c₂ hc₁ ⟨row, hget, hhidden⟩ hstep => ?_) hc hroot
    obtain ⟨row', hget', hlater⟩ := comment_later hc₁ hstep hget
    exact ⟨row', hget', hlater.hidden hhidden⟩
  · refine hrun.keeps_iff (P := fun c => c.store.HidesAll root) (fun c₁ a c₂ hc₁ hP hstep => ?_)
      hc hbefore
    obtain ⟨hs, ⟨hnone, hsame⟩ | ⟨ev, m', hev, hknown, hcommit⟩⟩ := comment_step hc₁ hstep
    · rw [hsame]
      exact iff_of_true hP fun ev hev => (by rw [hnone] at hev; cases hev)
    · rw [hcommit.hidesAll_iff hs hknown hP]
      constructor
      · intro hkeeps ev' hev'
        obtain rfl := Option.some.inj (hev.symm.trans hev')
        exact hkeeps
      · exact fun hholds => hholds ev hev

end Runs

section Example

def lateReply : Draft := ⟨9, 5, some 3, ['r'], false⟩

def admin : Actor := ⟨1, .admin⟩

def hiddenComment : CommentStore :=
  commented.hide [(3, firstComment)] 8 1 ['x'] 8
    [⟨admin, .adminHardHidden, 3, ['x'], 5, 1⟩]

theorem commented_flat {x y : CommentId} : ¬ Below commented.site.parentOf x y := by
  intro hbelow
  obtain ⟨z, hparent, _⟩ := below_iff.mp hbelow
  obtain ⟨c, hget, hc⟩ := Option.bind_eq_some_iff.mp hparent
  obtain rfl := commented_get hget
  cases hc

/-- A reply has been checked against its parent, and a hide is about to commit. -/
theorem hide_overtakes : (commentProtocol 500).Reaches CommentStore.Consistent (fun _ _ => True)
    commented (ready lateReply) (flushed admin ['x'] 3 5 [(3, firstComment)]) := by
  have hfree (k : CommentId) : ¬ CommentRequest.locks idle k := id
  have hready (k : CommentId) : ¬ CommentRequest.locks (ready lateReply) k := id
  have hnone : commented.site.repliesTo [3] = [] := by
    refine List.eq_nil_iff_forall_not_mem.mpr fun ⟨id, c⟩ hmem => ?_
    obtain ⟨hget, p, _, hparent⟩ := mem_repliesTo.mp hmem
    obtain rfl := commented_get hget
    cases hparent
  have hstart := Protocol.reaches_start (P := commentProtocol 500) (G := fun _ _ => True)
    commented_consistent (m := idle) (n := idle) rfl rfl
  have hdrafted := hstart.read_left
    (.draft 9 ⟨5, ['r'], some 3, false⟩ lateReply (by decide +kernel)) (fun k _ => hfree k) trivial
  have hplaced := hdrafted.read_left (.place lateReply (by decide +kernel))
    (fun k _ => hfree k) trivial
  have hchecked := hplaced.read_left (.parent lateReply 3 rfl (by decide +kernel))
    (fun k _ => hfree k) trivial
  have hlocked := hchecked.read_right
    (.lock (.hide admin ['x']) 3 firstComment (by rfl) (by rintro _ _ h; cases h; rfl))
    (fun k _ => hready k) trivial
  have hcollecting := hlocked.read_right (.collect admin ['x'] ['x'] 3 firstComment
    (by decide +kernel)) (fun k _ => hready k) trivial
  have hcollected := hcollecting.read_right (.descend _ _ _ _ _ _ (by decide))
    (fun k _ => hready k) trivial
  rw [hnone] at hcollected
  exact hcollected.read_right (.flush admin ['x'] 3 5 [(3, firstComment)])
    (fun k _ => hready k) trivial

/-- The hide commits; without the reply it is complete. -/
theorem hide_without_reply : hiddenComment.HardHidden 3 ∧ hiddenComment.HidesAll 3 := by
  have hstep := Protocol.Step.commit (P := commentProtocol 500)
    ⟨commented, pair (ready lateReply) (flushed admin ['x'] 3 5 [(3, firstComment)])⟩ true _ _ _
    (.hidden admin ['x'] 3 5 [(3, firstComment)] 8 8) (Protocol.free_right fun k hk => hk.elim)
  have hshown : commented.HidesAll 3 := fun _ _ _ hbelow => absurd hbelow commented_flat
  obtain ⟨hhides, _, hiff⟩ := hard_hide_complete_iff 500 3 (System.Reach.of_guarded hide_overtakes)
    (.snoc (.nil _) hstep) hshown
  refine ⟨hhides _ (List.mem_singleton_self _) rfl,
    hiff.mpr (fun e he => ?_) _ (List.mem_singleton_self _)⟩
  obtain rfl := List.mem_singleton.mp he
  intro ev hev
  obtain rfl := Option.some.inj hev
  exact fun _ id _ hbelow => absurd hbelow commented_flat

/-- The reply is written after the hide and renders. -/
theorem late_reply_renders : ¬ ∀ (root : CommentId)
    {c c' : Config Bool CommentStore CommentRequest}
    {l : List (Config Bool CommentStore CommentRequest × Move Bool CommentEvent ×
      Config Bool CommentStore CommentRequest)},
    (commentSystem 500 Bool).Reach c → (commentSystem 500 Bool).Run c l c' →
    c.store.HidesAll root → ∀ e ∈ l, e.2.2.store.HidesAll root := by
  intro hall
  have hnone : hiddenComment.site.comments.get 4 = none := by
    refine get_hide.trans (Option.map_eq_none_iff.mpr ?_)
    exact Table.get_put_of_ne _ _ (by decide)
  have hstep := Protocol.Step.commit (P := commentProtocol 500)
    ⟨hiddenComment, pair (ready lateReply) idle⟩ false _ _ _
    (.created lateReply 4 9 hnone) (Protocol.free_left fun k hk => hk.elim)
  have hbefore : hiddenComment.HidesAll 3 := by
    intro _ id task hbelow
    obtain ⟨y, hparent, _⟩ := below_iff.mp hbelow
    obtain ⟨c, hget, hc⟩ := Option.bind_eq_some_iff.mp hparent
    obtain ⟨row, hrow, rfl⟩ := Option.map_eq_some_iff.mp (get_hide.symm.trans hget)
    obtain rfl := commented_get hrow
    split at hc <;> cases hc
  have hhide := hide_overtakes.commit_right (.hidden admin ['x'] 3 5 [(3, firstComment)] 8 8)
    (fun k hk => hk.elim) trivial
  have hafter : (hiddenComment.create 4 lateReply 9).HidesAll 3 :=
    hall 3 (System.Reach.of_guarded hhide) (.snoc (.nil _) hstep) hbefore _
      (List.mem_singleton_self _)
  have hfour : (hiddenComment.create 4 lateReply 9).site.comments.get 4 = some (lateReply.row 9) :=
    Table.get_put_self _ _ _
  have hthree : (hiddenComment.create 4 lateReply 9).site.comments.get 3 =
      some (firstComment.hardHide firstComment 8 1 (hardHiddenReason ['x']) 8) :=
    (Table.get_put_of_ne _ _ (by decide)).trans
      (get_hide.trans (congrArg (Option.map _) (Table.get_put_self _ _ _)))
  have hhidden : (hiddenComment.create 4 lateReply 9).HardHidden 3 :=
    ⟨_, hthree, (hardHide_hidden 8 8 1 _ (Later.refl firstComment)).1⟩
  have hedge : (hiddenComment.create 4 lateReply 9).site.parentOf 4 = some 3 := parentOf_eq hfour
  have hrendered : 4 ∈ (hiddenComment.create 4 lateReply 9).site.rendered (lateReply.row 9).taskId :=
    Site.live_rendered hfour rfl (Option.some_ne_none _)
  exact hafter hhidden 4 _ (.single hedge) hrendered

end Example

end CampusQuest.Community
