import CampusQuest.Redelivery

/-!
What the lifecycle may rely on in every state it can reach. Every claim is of a task that is
there and points at the newest of its own submissions; its lock fits its status and its ladder;
and what has been filed keeps its identity.
-/

namespace CampusQuest.Lifecycle

open Runs

structure Consistent (s : State) : Prop where
  tasks : ∀ k c, s.db.claims.get k = some c → s.db.tasks.get c.taskId ≠ none
  pointed : Pointed s
  locks : ∀ k c, s.db.claims.get k = some c → LockSound c
  applied : AppliedSound s

/-- Nothing that was filed is lost or becomes another one's. -/
structure Filed (db db' : Db) : Prop where
  claims : ∀ k c, db.claims.get k = some c → ∃ c', db'.claims.get k = some c' ∧ SameClaim c c'
  submissions : ∀ id r, db.submissions.get id = some r →
    ∃ r', db'.submissions.get id = some r' ∧ SameSubmission r r'

theorem SameSubmission.trans {r r' r'' : Submission} (h : SameSubmission r r')
    (h' : SameSubmission r' r'') : SameSubmission r r'' :=
  ⟨h'.claimId.trans h.claimId, h'.version.trans h.version, h'.submittedAt.trans h.submittedAt,
    h'.objectKey.trans h.objectKey⟩

variable {s s' : State} {l : List (State × Op × State)}

theorem consistent_reach (hs : lifecycle.Reach s) : Consistent s :=
  ⟨hasTask_inductive.reach hs, pointed_inductive.reach hs, lockSound_inductive.reach hs,
    appliedSound_reach hs⟩

theorem filed_step (op : Op) {db : Db} (h : Filed db s.db) : Filed db (s.apply op).db := by
  constructor
  · intro k c hc
    obtain ⟨c₁, hc₁, hsame⟩ := h.claims k c hc
    obtain ⟨c₂, hc₂, hmove⟩ := (apply_effect s op).claim_move hc₁
    exact ⟨c₂, hc₂, hsame.trans hmove.sameClaim⟩
  · intro id r hr
    obtain ⟨r₁, hr₁, hsame⟩ := h.submissions id r hr
    obtain ⟨r₂, hr₂, hsame'⟩ := submission_frame s op id r₁ hr₁
    exact ⟨r₂, hr₂, hsame.trans hsame'⟩

theorem stays_consistent (hs : lifecycle.Reach s) (hrun : lifecycle.Run s l s') :
    Consistent s' ∧ Filed s.db s'.db := by
  refine ⟨consistent_reach (hrun.reach hs), ?_⟩
  refine hrun.keeps (P := fun t => Filed s.db t.db) (fun t op _ _ h hstep => ?_) hs
    ⟨fun _ c hc => ⟨c, hc, .refl c⟩, fun _ r hr => ⟨r, hr, rfl, rfl, rfl, rfl⟩⟩
  cases hstep
  exact filed_step op h

theorem stays_consistent_returned :
    let s := (opening 50 (by decide)).run lockedOnce
    let ops := [Op.requireRevision ⟨9, .teacher⟩ 1 (some ['n'])]
    ((s.run ops).db.claims.get 1).map AssignmentClaim.status = some .revisionRequired ∧
      Consistent (s.run ops) ∧ Filed s.db (s.run ops).db :=
  ⟨by decide +kernel, stays_consistent (reach_opening 50 (by decide) lockedOnce) (run_trace _ _)⟩

end CampusQuest.Lifecycle
