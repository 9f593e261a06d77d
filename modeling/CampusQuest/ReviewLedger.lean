import CampusQuest.ReviewRows
import Mathlib.Logic.Function.Basic

/-!
What the review of achievements keeps on file: the workflow of each achievement, its revisions
and the status of each case. Who holds a case and how often it has changed hands is left out.
A revision is filed with a case that waits, a waiting case is closed, and nothing else moves.
-/

namespace CampusQuest.Innovation

structure Filing where
  achievementId : AchievementId
  revisionId : RevisionId
  status : CaseStatus
  deriving DecidableEq

structure Ledger where
  workflow : AchievementId → Option AchievementWorkflow
  revision : RevisionId → Option AchievementRevision
  filing : CaseId → Option Filing

namespace Ledger

variable (L : Ledger)

def Pending (achievement : AchievementId) (operation : ReviewOperation) : Prop :=
  ∃ id rid r, L.filing id = some ⟨achievement, rid, .submitted⟩ ∧ L.revision rid = some r ∧
    r.operation = operation

/-- The workflow of an achievement says what its cases and its revisions say. -/
structure Agrees (achievement : AchievementId) (w : AchievementWorkflow) : Prop where
  submitted_iff : w.firstReviewState = .submitted ↔ L.Pending achievement .submit
  update_approved : L.Pending achievement .update → w.firstReviewState = .approved
  approved_iff : w.firstReviewState = .approved ↔ w.publicRevisionId ≠ none
  first_iff : w.firstReviewState = .approved ↔ w.firstApprovedAt ≠ none
  public_latest : ∀ rid, w.publicRevisionId = some rid → ∃ r id, L.revision rid = some r ∧
    r.achievementId = achievement ∧ L.filing id = some ⟨achievement, rid, .approved⟩ ∧
    ∀ id' rid' r', L.filing id' = some ⟨achievement, rid', .approved⟩ →
      L.revision rid' = some r' → r'.number ≤ r.number

structure Consistent : Prop where
  workflow_of_revision : ∀ id r, L.revision id = some r → L.workflow r.achievementId ≠ none
  revision_of_filing : ∀ id f, L.filing id = some f →
    ∃ r, L.revision f.revisionId = some r ∧ r.achievementId = f.achievementId
  one_filing : ∀ id id' f f', L.filing id = some f → L.filing id' = some f' →
    f.revisionId = f'.revisionId → id = id'
  one_number : ∀ id id' r r', L.revision id = some r → L.revision id' = some r' →
    r.achievementId = r'.achievementId → r.number = r'.number → id = id'
  one_request : ∀ id id' r r', L.revision id = some r → L.revision id' = some r' →
    r.achievementId = r'.achievementId → r.creationRequestId = r'.creationRequestId → id = id'
  one_pending : ∀ achievement id id' rid rid',
    L.filing id = some ⟨achievement, rid, .submitted⟩ →
    L.filing id' = some ⟨achievement, rid', .submitted⟩ → id = id'
  pending_last : ∀ achievement id rid r rid' r',
    L.filing id = some ⟨achievement, rid, .submitted⟩ → L.revision rid = some r →
    L.revision rid' = some r' → r'.achievementId = achievement → r'.number ≤ r.number
  agrees : ∀ achievement w, L.workflow achievement = some w → L.Agrees achievement w

def look (achievement : AchievementId) : Ledger :=
  { L with
    workflow :=
      Function.update L.workflow achievement (some ((L.workflow achievement).getD newWorkflow)) }

def file (achievement : AchievementId) (rid : RevisionId) (id : CaseId) (r : AchievementRevision)
    (w : AchievementWorkflow) : Ledger where
  workflow := Function.update L.workflow achievement (some w)
  revision := Function.update L.revision rid (some r)
  filing := Function.update L.filing id (some ⟨achievement, rid, .submitted⟩)

def close (achievement : AchievementId) (rid : RevisionId) (id : CaseId) (status : CaseStatus)
    (w : AchievementWorkflow) : Ledger :=
  { L with
    workflow := Function.update L.workflow achievement (some w)
    filing := Function.update L.filing id (some ⟨achievement, rid, status⟩) }

variable {L} {achievement : AchievementId} {rid : RevisionId} {id : CaseId}
  {r : AchievementRevision} {w w' : AchievementWorkflow}

/-- What is said of an achievement rests on its own cases and on the revisions of these. -/
theorem Agrees.frame {L' : Ledger} (h : L.Agrees achievement w) (hL : L.Consistent)
    (hfiling : ∀ id rid status, L'.filing id = some ⟨achievement, rid, status⟩ ↔
      L.filing id = some ⟨achievement, rid, status⟩)
    (hrevision : ∀ rid r, L.revision rid = some r → L'.revision rid = some r) :
    L'.Agrees achievement w := by
  have hback : ∀ id rid status r, L'.filing id = some ⟨achievement, rid, status⟩ →
      L'.revision rid = some r → L.revision rid = some r := by
    intro id rid status r hf hr
    obtain ⟨r₀, hr₀, _⟩ := hL.revision_of_filing _ _ ((hfiling id rid status).mp hf)
    rw [hrevision rid r₀ hr₀] at hr
    rw [← hr]
    exact hr₀
  have hpending : ∀ operation, L'.Pending achievement operation ↔ L.Pending achievement operation := by
    intro operation
    constructor
    · rintro ⟨id, rid, r, hf, hr, hop⟩
      exact ⟨id, rid, r, (hfiling _ _ _).mp hf, hback id rid _ r hf hr, hop⟩
    · rintro ⟨id, rid, r, hf, hr, hop⟩
      exact ⟨id, rid, r, (hfiling _ _ _).mpr hf, hrevision _ _ hr, hop⟩
  constructor
  · rw [hpending]
    exact h.submitted_iff
  · rw [hpending]
    exact h.update_approved
  · exact h.approved_iff
  · exact h.first_iff
  · intro rid hpublic
    obtain ⟨r, id, hr, hachievement, hf, hlatest⟩ := h.public_latest rid hpublic
    refine ⟨r, id, hrevision _ _ hr, hachievement, (hfiling _ _ _).mpr hf, ?_⟩
    intro id' rid' r' hf' hr'
    exact hlatest id' rid' r' ((hfiling _ _ _).mp hf') (hback id' rid' _ r' hf' hr')

/-- An achievement without a workflow has no case. -/
theorem Consistent.workflow_of_filing (hL : L.Consistent) {f : Filing}
    (h : L.filing id = some f) : L.workflow f.achievementId ≠ none := by
  obtain ⟨r, hr, hachievement⟩ := hL.revision_of_filing _ _ h
  rw [← hachievement]
  exact hL.workflow_of_revision _ _ hr

theorem Consistent.getD (hL : L.Consistent) {f : Filing} (h : L.filing id = some f) :
    L.workflow f.achievementId = some ((L.workflow f.achievementId).getD newWorkflow) := by
  cases hw : L.workflow f.achievementId with
  | none => exact absurd hw (hL.workflow_of_filing h)
  | some w => rfl

/-- A new workflow says that nothing has happened. -/
theorem agrees_new (h : ∀ id f, L.filing id = some f → f.achievementId ≠ achievement) :
    L.Agrees achievement newWorkflow := by
  have hnone : ∀ operation, ¬ L.Pending achievement operation := by
    rintro operation ⟨id, rid, r, hf, _⟩
    exact h id _ hf rfl
  constructor
  · exact ⟨fun heq => (by cases heq), fun hp => absurd hp (hnone _)⟩
  · exact fun hp => absurd hp (hnone _)
  · exact ⟨fun heq => (by cases heq), fun hp => absurd rfl hp⟩
  · exact ⟨fun heq => (by cases heq), fun hp => absurd rfl hp⟩
  · intro rid hpublic
    cases hpublic

theorem Consistent.getD_agrees (hL : L.Consistent) (achievement : AchievementId) :
    L.Agrees achievement ((L.workflow achievement).getD newWorkflow) := by
  cases hw : L.workflow achievement with
  | some w => exact hL.agrees achievement w hw
  | none =>
    refine agrees_new fun id f hf heq => ?_
    subst heq
    exact hL.workflow_of_filing hf hw

theorem look_workflow (achievement achievement' : AchievementId) :
    (L.look achievement).workflow achievement' =
      if achievement' = achievement then some ((L.workflow achievement).getD newWorkflow)
      else L.workflow achievement' :=
  Function.update_apply _ _ _ _

theorem Consistent.look (hL : L.Consistent) (achievement : AchievementId) :
    (L.look achievement).Consistent := by
  refine { hL with workflow_of_revision := ?_, agrees := ?_ }
  · intro id r hr
    rw [look_workflow]
    split
    · exact Option.some_ne_none _
    · exact hL.workflow_of_revision id r hr
  · intro achievement' w' hw'
    rw [look_workflow] at hw'
    split at hw'
    next heq =>
      subst heq
      cases hw'
      exact (hL.getD_agrees achievement').frame hL (fun _ _ _ => Iff.rfl) fun _ _ h => h
    next => exact (hL.agrees achievement' w' hw').frame hL (fun _ _ _ => Iff.rfl) fun _ _ h => h

section Close

variable {status : CaseStatus}

theorem close_workflow (achievement' : AchievementId) :
    (L.close achievement rid id status w').workflow achievement' =
      if achievement' = achievement then some w' else L.workflow achievement' :=
  Function.update_apply _ _ _ _

theorem close_filing (id' : CaseId) :
    (L.close achievement rid id status w').filing id' =
      if id' = id then some ⟨achievement, rid, status⟩ else L.filing id' :=
  Function.update_apply _ _ _ _

structure Closing (L : Ledger) (achievement : AchievementId) (rid : RevisionId) (id : CaseId)
    (status : CaseStatus) (w w' : AchievementWorkflow) : Prop where
  found : L.filing id = some ⟨achievement, rid, .submitted⟩
  before : L.workflow achievement = some w
  closed : status ≠ .submitted
  open_again : w'.firstReviewState ≠ .submitted
  approved_iff : w'.firstReviewState = .approved ↔ w'.publicRevisionId ≠ none
  first_iff : w'.firstReviewState = .approved ↔ w'.firstApprovedAt ≠ none
  published : status ≠ .approved ∧ w'.publicRevisionId = w.publicRevisionId ∨
    status = .approved ∧ w'.publicRevisionId = some rid
  first_stays : w.firstApprovedAt ≠ none → w'.firstApprovedAt = w.firstApprovedAt

variable (h : L.Closing achievement rid id status w w')
include h

/-- A case is filed for the same revision before and after. -/
theorem Closing.filing_before {id' : CaseId} {f : Filing}
    (hf : (L.close achievement rid id status w').filing id' = some f) :
    ∃ f₀, L.filing id' = some f₀ ∧ f₀.achievementId = f.achievementId ∧
      f₀.revisionId = f.revisionId ∧ (f.status = .submitted → f₀ = f ∧ id' ≠ id) := by
  rw [close_filing] at hf
  split at hf
  next heq =>
    subst heq
    cases hf
    exact ⟨_, h.found, rfl, rfl, fun hs => absurd hs h.closed⟩
  next hne => exact ⟨f, hf, rfl, rfl, fun _ => ⟨rfl, hne⟩⟩

/-- No case of the achievement waits any more. -/
theorem Closing.none_pending (hL : L.Consistent) (operation : ReviewOperation) :
    ¬ (L.close achievement rid id status w').Pending achievement operation := by
  rintro ⟨id', rid', r', hf, _⟩
  obtain ⟨f₀, hf₀, _, _, hsame⟩ := h.filing_before hf
  obtain ⟨rfl, hne⟩ := hsame rfl
  exact hne (hL.one_pending _ _ _ _ _ hf₀ h.found)

theorem Closing.agrees (hL : L.Consistent) :
    (L.close achievement rid id status w').Agrees achievement w' := by
  have hw := hL.agrees achievement w h.before
  constructor
  · exact ⟨fun heq => absurd heq h.open_again, fun hp => absurd hp (h.none_pending hL _)⟩
  · exact fun hp => absurd hp (h.none_pending hL _)
  · exact h.approved_iff
  · exact h.first_iff
  · intro rid₁ hpublic
    rcases h.published with ⟨hstatus, hsame⟩ | ⟨rfl, hnew⟩
    · -- The approved cases are the ones before.
      have hback : ∀ id' rid', (L.close achievement rid id status w').filing id' =
          some ⟨achievement, rid', .approved⟩ ↔ L.filing id' = some ⟨achievement, rid', .approved⟩ := by
        intro id' rid'
        rw [close_filing]
        split
        next heq =>
          subst heq
          rw [h.found]
          constructor
          · intro hf
            exact absurd (congrArg Filing.status (Option.some.inj hf)) hstatus
          · intro hf
            cases hf
        next => exact Iff.rfl
      rw [hsame] at hpublic
      obtain ⟨r, id', hr, hachievement, hf, hlatest⟩ := hw.public_latest rid₁ hpublic
      refine ⟨r, id', hr, hachievement, (hback _ _).mpr hf, ?_⟩
      intro id₂ rid₂ r₂ hf₂ hr₂
      exact hlatest id₂ rid₂ r₂ ((hback _ _).mp hf₂) hr₂
    · -- The case that waited has the last of all revisions.
      rw [hnew] at hpublic
      obtain rfl := Option.some.inj hpublic
      obtain ⟨r, hr, hachievement⟩ := hL.revision_of_filing _ _ h.found
      refine ⟨r, id, hr, hachievement, ?_, ?_⟩
      · rw [close_filing, if_pos rfl]
      · intro id₂ rid₂ r₂ hf₂ hr₂
        obtain ⟨f₀, hf₀, hachievement₀, hrevision₀, _⟩ := h.filing_before hf₂
        obtain ⟨r₀, hr₀, hof⟩ := hL.revision_of_filing _ _ hf₀
        rw [hrevision₀] at hr₀
        obtain rfl : r₀ = r₂ := Option.some.inj (hr₀.symm.trans hr₂)
        exact hL.pending_last _ _ _ _ _ _ h.found hr hr₂ (hof.trans hachievement₀)

theorem Closing.consistent (hL : L.Consistent) :
    (L.close achievement rid id status w').Consistent where
  workflow_of_revision := by
    intro id' r hr
    rw [close_workflow]
    split
    · exact Option.some_ne_none _
    · exact hL.workflow_of_revision id' r hr
  revision_of_filing := by
    intro id' f hf
    obtain ⟨f₀, hf₀, hachievement, hrevision, _⟩ := h.filing_before hf
    rw [← hachievement, ← hrevision]
    exact hL.revision_of_filing id' f₀ hf₀
  one_filing := by
    intro id₁ id₂ f₁ f₂ hf₁ hf₂ heq
    obtain ⟨g₁, hg₁, _, hrevision₁, _⟩ := h.filing_before hf₁
    obtain ⟨g₂, hg₂, _, hrevision₂, _⟩ := h.filing_before hf₂
    exact hL.one_filing _ _ g₁ g₂ hg₁ hg₂ (hrevision₁.trans (heq.trans hrevision₂.symm))
  one_number := hL.one_number
  one_request := hL.one_request
  one_pending := by
    intro achievement' id₁ id₂ rid₁ rid₂ hf₁ hf₂
    obtain ⟨g₁, hg₁, _, _, hsame₁⟩ := h.filing_before hf₁
    obtain ⟨g₂, hg₂, _, _, hsame₂⟩ := h.filing_before hf₂
    obtain ⟨rfl, _⟩ := hsame₁ rfl
    obtain ⟨rfl, _⟩ := hsame₂ rfl
    exact hL.one_pending _ _ _ _ _ hg₁ hg₂
  pending_last := by
    intro achievement' id' rid' r' rid₂ r₂ hf hr' hr₂
    obtain ⟨f₀, hf₀, _, _, hsame⟩ := h.filing_before hf
    obtain ⟨rfl, _⟩ := hsame rfl
    exact hL.pending_last _ _ _ _ _ _ hf₀ hr' hr₂
  agrees := by
    intro achievement' w₁ hw₁
    rw [close_workflow] at hw₁
    split at hw₁
    next heq =>
      subst heq
      cases hw₁
      exact h.agrees hL
    next hne =>
      refine (hL.agrees achievement' w₁ hw₁).frame hL (fun id' rid' status' => ?_) fun _ _ h => h
      rw [close_filing]
      split
      next heq =>
        subst heq
        rw [h.found]
        constructor
        · intro hf
          exact absurd (congrArg Filing.achievementId (Option.some.inj hf)).symm hne
        · intro hf
          exact absurd (congrArg Filing.achievementId (Option.some.inj hf)).symm hne
      next => exact Iff.rfl

end Close

section File

theorem file_workflow (achievement' : AchievementId) :
    (L.file achievement rid id r w').workflow achievement' =
      if achievement' = achievement then some w' else L.workflow achievement' :=
  Function.update_apply _ _ _ _

theorem file_revision (rid' : RevisionId) :
    (L.file achievement rid id r w').revision rid' = if rid' = rid then some r else L.revision rid' :=
  Function.update_apply _ _ _ _

theorem file_filing (id' : CaseId) :
    (L.file achievement rid id r w').filing id' =
      if id' = id then some ⟨achievement, rid, .submitted⟩ else L.filing id' :=
  Function.update_apply _ _ _ _

theorem file_revision_some {rid' : RevisionId} {r' : AchievementRevision}
    (hr : (L.file achievement rid id r w').revision rid' = some r') :
    rid' = rid ∧ r' = r ∨ L.revision rid' = some r' := by
  rw [file_revision] at hr
  split at hr
  next heq => exact .inl ⟨heq, (Option.some.inj hr).symm⟩
  next => exact .inr hr

theorem file_filing_some {id' : CaseId} {f : Filing}
    (hf : (L.file achievement rid id r w').filing id' = some f) :
    id' = id ∧ f = ⟨achievement, rid, .submitted⟩ ∨ L.filing id' = some f := by
  rw [file_filing] at hf
  split at hf
  next heq => exact .inl ⟨heq, (Option.some.inj hf).symm⟩
  next => exact .inr hf

/-- A new revision has the next number and a request of its own, and no other case waits. -/
structure Submits (L : Ledger) (achievement : AchievementId) (rid : RevisionId) (id : CaseId)
    (r : AchievementRevision) (w w' : AchievementWorkflow) : Prop where
  new_revision : L.revision rid = none
  new_case : L.filing id = none
  of_achievement : r.achievementId = achievement
  next_number : ∀ rid' r', L.revision rid' = some r' → r'.achievementId = achievement →
    r'.number < r.number
  own_request : ∀ rid' r', L.revision rid' = some r' → r'.achievementId = achievement →
    r'.creationRequestId ≠ r.creationRequestId
  none_pending : ∀ id' rid', L.filing id' ≠ some ⟨achievement, rid', .submitted⟩
  before : w = (L.workflow achievement).getD newWorkflow
  first : r.operation = .submit →
    w.firstReviewState ≠ .approved ∧ w'.firstReviewState = .submitted
  again : r.operation = .update →
    w.firstReviewState = .approved ∧ w'.firstReviewState = .approved
  same_public : w'.publicRevisionId = w.publicRevisionId
  same_first : w'.firstApprovedAt = w.firstApprovedAt

variable (h : L.Submits achievement rid id r w w')
include h

theorem Submits.revision_after {rid' : RevisionId} {r' : AchievementRevision}
    (hr : L.revision rid' = some r') : (L.file achievement rid id r w').revision rid' = some r' := by
  rw [file_revision, if_neg]
  · exact hr
  · rintro rfl
    rw [h.new_revision] at hr
    cases hr

theorem Submits.revision_of_old (hL : L.Consistent) {id' : CaseId} {f : Filing}
    {r' : AchievementRevision} (hf : L.filing id' = some f)
    (hr : (L.file achievement rid id r w').revision f.revisionId = some r') :
    L.revision f.revisionId = some r' := by
  obtain ⟨r₀, hr₀, _⟩ := hL.revision_of_filing id' f hf
  rw [h.revision_after hr₀] at hr
  rw [hr₀, hr]

theorem Submits.pending_iff (operation : ReviewOperation) :
    (L.file achievement rid id r w').Pending achievement operation ↔ r.operation = operation := by
  constructor
  · rintro ⟨id', rid', r', hf, hr', hop⟩
    rcases file_filing_some hf with ⟨_, heq⟩ | hold
    · obtain rfl : rid' = rid := congrArg Filing.revisionId heq
      rw [file_revision, if_pos rfl] at hr'
      rw [Option.some.inj hr']
      exact hop
    · exact absurd hold (h.none_pending id' rid')
  · intro hop
    refine ⟨id, rid, r, ?_, ?_, hop⟩
    · rw [file_filing, if_pos rfl]
    · rw [file_revision, if_pos rfl]

theorem Submits.agrees (hL : L.Consistent) :
    (L.file achievement rid id r w').Agrees achievement w' := by
  have hw : L.Agrees achievement w := by
    rw [h.before]
    exact hL.getD_agrees achievement
  have hstate : w'.firstReviewState = .approved ↔ w.firstReviewState = .approved := by
    cases hop : r.operation with
    | submit =>
      obtain ⟨hw₀, hw₁⟩ := h.first hop
      rw [hw₁]
      exact ⟨fun heq => (by cases heq), fun heq => absurd heq hw₀⟩
    | update =>
      obtain ⟨hw₀, hw₁⟩ := h.again hop
      rw [hw₀, hw₁]
  constructor
  · rw [h.pending_iff]
    cases hop : r.operation with
    | submit => exact ⟨fun _ => rfl, fun _ => (h.first hop).2⟩
    | update =>
      rw [(h.again hop).2]
      exact ⟨fun heq => (by cases heq), fun heq => (by cases heq)⟩
  · rw [h.pending_iff]
    exact fun hop => (h.again hop).2
  · rw [hstate, h.same_public]
    exact hw.approved_iff
  · rw [hstate, h.same_first]
    exact hw.first_iff
  · intro rid₁ hpublic
    rw [h.same_public] at hpublic
    obtain ⟨r₁, id₁, hr₁, hachievement, hf₁, hlatest⟩ := hw.public_latest rid₁ hpublic
    refine ⟨r₁, id₁, h.revision_after hr₁, hachievement, ?_, ?_⟩
    · rw [file_filing, if_neg]
      · exact hf₁
      · rintro rfl
        rw [h.new_case] at hf₁
        cases hf₁
    · intro id₂ rid₂ r₂ hf₂ hr₂
      rcases file_filing_some hf₂ with ⟨_, heq⟩ | hold
      · cases heq
      · exact hlatest id₂ rid₂ r₂ hold (h.revision_of_old hL hold hr₂)

theorem Submits.consistent (hL : L.Consistent) :
    (L.file achievement rid id r w').Consistent where
  workflow_of_revision := by
    intro rid' r' hr
    rw [file_workflow]
    split
    · exact Option.some_ne_none _
    next hne =>
      rcases file_revision_some hr with ⟨_, rfl⟩ | hold
      · exact absurd h.of_achievement hne
      · exact hL.workflow_of_revision rid' r' hold
  revision_of_filing := by
    intro id' f hf
    rcases file_filing_some hf with ⟨_, rfl⟩ | hold
    · refine ⟨r, ?_, h.of_achievement⟩
      rw [file_revision, if_pos rfl]
    · obtain ⟨r', hr', hachievement⟩ := hL.revision_of_filing id' f hold
      exact ⟨r', h.revision_after hr', hachievement⟩
  one_filing := by
    have hnew : ∀ id' f, L.filing id' = some f → f.revisionId ≠ rid := by
      intro id' f hf heq
      obtain ⟨r', hr', _⟩ := hL.revision_of_filing id' f hf
      rw [heq, h.new_revision] at hr'
      cases hr'
    intro id₁ id₂ f₁ f₂ hf₁ hf₂ heq
    rcases file_filing_some hf₁ with ⟨rfl, rfl⟩ | hold₁
    · rcases file_filing_some hf₂ with ⟨rfl, _⟩ | hold₂
      · rfl
      · exact absurd heq.symm (hnew id₂ f₂ hold₂)
    · rcases file_filing_some hf₂ with ⟨rfl, rfl⟩ | hold₂
      · exact absurd heq (hnew id₁ f₁ hold₁)
      · exact hL.one_filing id₁ id₂ f₁ f₂ hold₁ hold₂ heq
  one_number := by
    intro rid₁ rid₂ r₁ r₂ hr₁ hr₂ hachievement hnumber
    rcases file_revision_some hr₁ with ⟨rfl, rfl⟩ | hold₁
    · rcases file_revision_some hr₂ with ⟨rfl, _⟩ | hold₂
      · rfl
      · exact absurd hnumber.symm
          (h.next_number rid₂ r₂ hold₂ (hachievement.symm.trans h.of_achievement)).ne
    · rcases file_revision_some hr₂ with ⟨rfl, rfl⟩ | hold₂
      · exact absurd hnumber
          (h.next_number rid₁ r₁ hold₁ (hachievement.trans h.of_achievement)).ne
      · exact hL.one_number rid₁ rid₂ r₁ r₂ hold₁ hold₂ hachievement hnumber
  one_request := by
    intro rid₁ rid₂ r₁ r₂ hr₁ hr₂ hachievement hrequest
    rcases file_revision_some hr₁ with ⟨rfl, rfl⟩ | hold₁
    · rcases file_revision_some hr₂ with ⟨rfl, _⟩ | hold₂
      · rfl
      · exact absurd hrequest.symm
          (h.own_request rid₂ r₂ hold₂ (hachievement.symm.trans h.of_achievement))
    · rcases file_revision_some hr₂ with ⟨rfl, rfl⟩ | hold₂
      · exact absurd hrequest
          (h.own_request rid₁ r₁ hold₁ (hachievement.trans h.of_achievement))
      · exact hL.one_request rid₁ rid₂ r₁ r₂ hold₁ hold₂ hachievement hrequest
  one_pending := by
    intro achievement' id₁ id₂ rid₁ rid₂ hf₁ hf₂
    rcases file_filing_some hf₁ with ⟨rfl, heq₁⟩ | hold₁
    · obtain rfl : achievement' = achievement := congrArg Filing.achievementId heq₁
      rcases file_filing_some hf₂ with ⟨rfl, _⟩ | hold₂
      · rfl
      · exact absurd hold₂ (h.none_pending id₂ rid₂)
    · rcases file_filing_some hf₂ with ⟨rfl, heq₂⟩ | hold₂
      · obtain rfl : achievement' = achievement := congrArg Filing.achievementId heq₂
        exact absurd hold₁ (h.none_pending id₁ rid₁)
      · exact hL.one_pending achievement' id₁ id₂ rid₁ rid₂ hold₁ hold₂
  pending_last := by
    intro achievement' id' rid₁ r₁ rid₂ r₂ hf hr₁ hr₂ hachievement
    rcases file_filing_some hf with ⟨_, heq⟩ | hold
    · obtain rfl : achievement' = achievement := congrArg Filing.achievementId heq
      obtain rfl : rid₁ = rid := congrArg Filing.revisionId heq
      rw [file_revision, if_pos rfl] at hr₁
      obtain rfl := Option.some.inj hr₁
      rcases file_revision_some hr₂ with ⟨_, rfl⟩ | hold₂
      · exact le_refl _
      · exact (h.next_number rid₂ r₂ hold₂ hachievement).le
    · have hr₁ := h.revision_of_old hL hold hr₁
      rcases file_revision_some hr₂ with ⟨_, rfl⟩ | hold₂
      · -- The new revision is of an achievement of which no case waited.
        obtain rfl : achievement' = achievement := hachievement.symm.trans h.of_achievement
        exact absurd hold (h.none_pending id' rid₁)
      · exact hL.pending_last achievement' id' rid₁ r₁ rid₂ r₂ hold hr₁ hold₂ hachievement
  agrees := by
    intro achievement' w₁ hw₁
    rw [file_workflow] at hw₁
    split at hw₁
    next heq =>
      subst heq
      cases hw₁
      exact h.agrees hL
    next hne =>
      refine (hL.agrees achievement' w₁ hw₁).frame hL (fun id' rid' status' => ?_)
        fun _ _ hr => h.revision_after hr
      rw [file_filing]
      split
      next heq =>
        subst heq
        rw [h.new_case]
        constructor
        · intro hf
          exact absurd (congrArg Filing.achievementId (Option.some.inj hf)).symm hne
        · intro hf
          cases hf
      next => exact Iff.rfl

end File

section Moves

inductive Move (L : Ledger) : Ledger → Prop
  | same : Move L L
  | looked (achievement : AchievementId) : Move L (L.look achievement)
  | filed {achievement : AchievementId} {rid : RevisionId} {id : CaseId} {r : AchievementRevision}
      {w w' : AchievementWorkflow} (h : L.Submits achievement rid id r w w') :
      Move L (L.file achievement rid id r w')
  | closed {achievement : AchievementId} {rid : RevisionId} {id : CaseId} {status : CaseStatus}
      {w w' : AchievementWorkflow} (h : L.Closing achievement rid id status w w') :
      Move L (L.close achievement rid id status w')

variable {L' : Ledger}

theorem Move.consistent (h : L.Move L') (hL : L.Consistent) : L'.Consistent := by
  cases h with
  | same => exact hL
  | looked achievement => exact hL.look achievement
  | filed h => exact h.consistent hL
  | closed h => exact h.consistent hL

theorem Move.revision (h : L.Move L') (hr : L.revision rid = some r) :
    L'.revision rid = some r := by
  cases h with
  | same => exact hr
  | looked achievement => exact hr
  | filed h => exact h.revision_after hr
  | closed h => exact hr

/-- The first approval is never dated again. -/
theorem Move.first_approved (h : L.Move L') {t : Instant}
    (hw : L.workflow achievement = some w) (ht : w.firstApprovedAt = some t) :
    ∃ w', L'.workflow achievement = some w' ∧ w'.firstApprovedAt = some t := by
  cases h with
  | same => exact ⟨w, hw, ht⟩
  | looked achievement' =>
    refine ⟨w, ?_, ht⟩
    rw [look_workflow]
    split
    next heq =>
      subst heq
      rw [hw]
      rfl
    next => exact hw
  | @filed achievement' rid' id' r' w₀ w' h =>
    rw [file_workflow]
    split
    next heq =>
      subst heq
      refine ⟨w', rfl, ?_⟩
      rw [h.same_first, h.before, hw]
      exact ht
    next => exact ⟨w, hw, ht⟩
  | @closed achievement' rid' id' status w₀ w' h =>
    rw [close_workflow]
    split
    next heq =>
      subst heq
      obtain rfl : w = w₀ := Option.some.inj (hw.symm.trans h.before)
      refine ⟨w', rfl, ?_⟩
      rw [h.first_stays, ht]
      rw [ht]
      exact Option.some_ne_none t
    next => exact ⟨w, hw, ht⟩

end Moves

end Ledger

end CampusQuest.Innovation
