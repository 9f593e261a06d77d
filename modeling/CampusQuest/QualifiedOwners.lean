import CampusQuest.PublicProjects
import CampusQuest.ReviewerExclusivity

/-!
Whose achievements are reviewed and published. Owners qualify once and for good, and nothing is
filed, decided or public under a project whose owner has not qualified.
-/

namespace CampusQuest.Innovation

open Runs Tables

def ReviewDb.Qualified (db : ReviewDb) (user : UserId) : Prop :=
  (db.qualifications.get user).any (fun q => q.approved) = true

/-- The achievement is there, under a project whose owner has qualified. -/
def ReviewDb.UnderQualified (db : ReviewDb) (achievement : AchievementId) : Prop :=
  ∃ projectId p, db.scopeOf achievement = some (projectId, p) ∧ db.Qualified p.ownerUserId

variable {digests : Fingerprints} {w w' : ReviewWorld}
  {l : List (ReviewWorld × Option ReviewCall × ReviewWorld)}

theorem qualified_stays {user : UserId} (hw : (reviewSystem digests).Reach w)
    (hrun : (reviewSystem digests).Run w l w') (h : w.db.Qualified user) :
    w'.db.Qualified user := by
  refine hrun.keeps (P := fun w => w.db.Qualified user) (fun u call u' _ hq hstep => ?_) hw h
  cases hstep with
  | call c hnow hfresh => exact (change_after c).qualified_stays hq
  | elsewhere helse =>
    unfold ReviewDb.Qualified
    rw [helse.qualifications]
    exact hq

/-- Over every run of the review, its owners and the rest of the application: the qualified stay
qualified, and every case that was ever filed and every revision that is public is of an
achievement under a project whose owner is qualified now. -/
theorem reviewed_under_qualified (hw : (reviewSystem digests).Reach w)
    (hrun : (reviewSystem digests).Run w l w') :
    (∀ user, w.db.Qualified user → w'.db.Qualified user) ∧
      (∀ id case, w'.db.cases.get id = some case → w'.db.UnderQualified case.achievementId) ∧
      ∀ achievement, (w'.db.workflows.get achievement).bind
        AchievementWorkflow.publicRevisionId ≠ none → w'.db.UnderQualified achievement := by
  have hw' := hrun.reach hw
  have hcases : ∀ id case, w'.db.cases.get id = some case →
      w'.db.UnderQualified case.achievementId := anchored_of_reach hw'
  refine ⟨fun user h => qualified_stays hw hrun h, hcases, fun achievement hpublic => ?_⟩
  obtain ⟨rid, hrid⟩ := Option.ne_none_iff_exists'.mp hpublic
  obtain ⟨_, id, case, _, _, hcase, hof, _⟩ :=
    (workflowAgrees (consistent_of_reach hw') achievement).public_latest rid hrid
  rw [← hof]
  exact hcases id case hcase

theorem reviewed_under_qualified_scene :
    (sceneApproved.db.workflows.get 1).bind AchievementWorkflow.publicRevisionId ≠ none ∧
      sceneApproved.db.UnderQualified 1 := by
  have hpublic : (sceneApproved.db.workflows.get 1).bind
      AchievementWorkflow.publicRevisionId ≠ none := by decide +kernel
  have hstep : ReviewStep sceneDigests (sceneWorld sceneReclaimed)
      (some (.decision sceneReviewer 2 sceneApprove)) sceneApproved :=
    .call (.decision sceneReviewer 2 sceneApprove) (le_refl 0) trivial
  have hafter := reviewed_under_qualified reach_reclaimed (.snoc (.nil _) hstep)
  exact ⟨hpublic, hafter.2.2 1 hpublic⟩

end CampusQuest.Innovation
