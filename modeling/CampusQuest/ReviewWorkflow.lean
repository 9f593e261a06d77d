import CampusQuest.ReviewSystem

/-!
The workflow of an achievement, its cases and its revisions agree in every reachable state.
Every command moves the ledger that the database keeps, or leaves it; from this the closed
cases, the first approval and the replays by request id are read off.
-/

namespace CampusQuest.Innovation

open Guards Tables Runs

section Filed

def AchievementReviewCase.filing (case : AchievementReviewCase) : Filing :=
  ⟨case.achievementId, case.revisionId, case.status⟩

def ReviewDb.ledger (db : ReviewDb) : Ledger where
  workflow := db.workflows.get
  revision := db.revisions.get
  filing id := (db.cases.get id).map AchievementReviewCase.filing

variable {digests : Fingerprints} {now : Instant} {db db' : ReviewDb}

theorem ReviewDb.filing_eq {id : CaseId} {f : Filing} :
    db.ledger.filing id = some f ↔ ∃ case, db.cases.get id = some case ∧ case.filing = f :=
  Option.map_eq_some_iff

theorem ReviewDb.filing_of_get {id : CaseId} {case : AchievementReviewCase}
    (h : db.cases.get id = some case) : db.ledger.filing id = some case.filing :=
  filing_eq.mpr ⟨case, h, rfl⟩

theorem get_put_update {κ ρ : Type} [DecidableEq κ] (t : Table κ ρ) (k : κ) (r : ρ) :
    (t.put k r).get = Function.update t.get k (some r) := by
  funext k'
  rw [Table.get_put, Function.update_apply]

theorem ReviewDb.filing_put (cases : Table CaseId AchievementReviewCase) (id : CaseId)
    (case : AchievementReviewCase) :
    (fun id' => ((cases.put id case).get id').map AchievementReviewCase.filing) =
      Function.update (fun id' => (cases.get id').map AchievementReviewCase.filing) id
        (some case.filing) := by
  funext id'
  rw [Table.get_put, Function.update_apply]
  split <;> rfl

theorem ReviewDb.ledger_putWorkflow (achievementId : AchievementId) :
    (db.putWorkflow achievementId).ledger = db.ledger.look achievementId := by
  unfold putWorkflow ledger Ledger.look
  rw [get_put_update]

theorem ReviewDb.ledger_putSubmission {achievementId : AchievementId} {revisionId : RevisionId}
    {caseId : CaseId} {revision : AchievementRevision} {workflow : AchievementWorkflow} :
    (db.putSubmission now achievementId revisionId caseId revision workflow).ledger =
      db.ledger.file achievementId revisionId caseId revision
        { workflow with
          firstReviewState :=
            if revision.operation = .submit then .submitted else workflow.firstReviewState
          version := workflow.version + 1 } := by
  unfold putSubmission ledger Ledger.file
  dsimp only
  rw [get_put_update, get_put_update, filing_put]
  rfl


theorem ReviewDb.ledger_putWithdrawal {achievementId : AchievementId} {caseId : CaseId}
    {case : AchievementReviewCase} {workflow : AchievementWorkflow}
    (h : case.achievementId = achievementId) :
    (db.putWithdrawal achievementId caseId case workflow).ledger =
      db.ledger.close achievementId case.revisionId caseId .withdrawn
        { workflow with
          firstReviewState :=
            if workflow.firstReviewState = .submitted then .draft else workflow.firstReviewState
          version := workflow.version + 1 } := by
  unfold putWithdrawal ledger Ledger.close
  dsimp only
  rw [get_put_update, filing_put, ← h]
  rfl

def decidedWorkflow (now : Instant) (case : AchievementReviewCase) (operation : ReviewOperation)
    (workflow : AchievementWorkflow) (payload : ReviewDecisionCommand) : AchievementWorkflow where
  firstReviewState :=
    if operation = .submit then payload.decision.state else workflow.firstReviewState
  version := workflow.version + 1
  publicRevisionId :=
    if payload.decision = .approved then some case.revisionId else workflow.publicRevisionId
  firstApprovedAt :=
    if payload.decision = .approved ∧ operation = .submit then some now
    else workflow.firstApprovedAt
  latestUpdateAt := if payload.decision = .approved then some now else workflow.latestUpdateAt

theorem ReviewDb.ledger_putDecision {caseId : CaseId} {case : AchievementReviewCase}
    {operation : ReviewOperation} {workflow : AchievementWorkflow}
    {payload : ReviewDecisionCommand} :
    (db.putDecision digests now caseId case operation workflow payload).ledger =
      db.ledger.close case.achievementId case.revisionId caseId payload.decision.status
        (decidedWorkflow now case operation workflow payload) := by
  unfold putDecision ledger Ledger.close
  dsimp only
  rw [get_put_update, filing_put]
  rfl

theorem ReviewDb.ledger_putClaim {caseId : CaseId} {case : AchievementReviewCase} {user : UserId}
    (h : db.cases.get caseId = some case) : (db.putClaim caseId case user).ledger = db.ledger := by
  unfold putClaim ledger
  dsimp only
  rw [filing_put]
  congr 1
  refine Function.update_eq_self_iff.mpr ?_
  rw [h]
  rfl

theorem ReviewDb.ledger_putConflict {projectId : ProjectId} {user : UserId} :
    (db.putConflict now projectId user).ledger = db.ledger := by
  unfold putConflict ledger
  dsimp only
  congr 1
  funext id
  rw [Table.get_updateWhere, Option.map_map]
  refine Option.map_congr fun case _ => ?_
  dsimp only [Function.comp]
  split <;> rfl

end Filed

section Moves

variable {digests : Fingerprints} {now : Instant} {db : ReviewDb}

theorem ReviewDb.Freezes.submits {actor : Actor} {projectId : ProjectId}
    {achievementId : AchievementId} {payload : SavedRevisionCommand}
    {operation : ReviewOperation} {revision : AchievementRevision}
    {workflow : AchievementWorkflow} {revisionId : RevisionId} {caseId : CaseId}
    (h : db.Freezes digests now actor projectId achievementId payload operation revision workflow)
    (hrevision : db.revisions.get revisionId = none) (hcase : db.cases.get caseId = none) :
    db.ledger.Submits achievementId revisionId caseId revision workflow
      { workflow with
        firstReviewState :=
          if revision.operation = .submit then .submitted else workflow.firstReviewState
        version := workflow.version + 1 } where
  new_revision := hrevision
  new_case := by
    change (db.cases.get caseId).map _ = none
    rw [hcase]
    rfl
  of_achievement := h.achievement_eq
  next_number := by
    intro rid r hr hachievement
    have hle : r.number ≤ db.maxNumber r.achievementId := ReviewDb.number_le_maxNumber hr
    rw [hachievement] at hle
    rw [h.number_eq]
    exact Nat.lt_succ_of_le hle
  own_request := by
    intro rid r hr hachievement hrequest
    exact Table.find_none h.unused hr ⟨hachievement, hrequest.trans h.request_eq⟩
  none_pending := by
    intro id rid hf
    obtain ⟨case, hget, hfiling⟩ := ReviewDb.filing_eq.mp hf
    exact ReviewDb.pendingCase_none h.none_pending hget (congrArg Filing.achievementId hfiling)
      (congrArg Filing.status hfiling)
  before := h.before
  first := by
    intro hop
    refine ⟨?_, if_pos hop⟩
    rcases h.first (h.operation_eq.symm.trans hop) with hstate | hstate <;>
      exact fun heq => (by rw [hstate] at heq; cases heq)
  again := by
    intro hop
    have hstate := h.again (h.operation_eq.symm.trans hop)
    refine ⟨hstate, ?_⟩
    dsimp only
    rw [hop, if_neg (fun heq => (by cases heq)), hstate]
  same_public := rfl
  same_first := rfl

variable (hL : db.ledger.Consistent)
include hL

theorem workflow_of_case {caseId : CaseId} {case : AchievementReviewCase}
    (h : db.cases.get caseId = some case) :
    db.workflows.get case.achievementId =
      some ((db.workflows.get case.achievementId).getD newWorkflow) :=
  hL.getD (ReviewDb.filing_of_get h)

theorem closing_of_withdrawal {caseId : CaseId} {case : AchievementReviewCase}
    {workflow : AchievementWorkflow} (hcase : db.cases.get caseId = some case)
    (hstatus : case.status = .submitted)
    (hbefore : db.workflows.get case.achievementId = some workflow) :
    db.ledger.Closing case.achievementId case.revisionId caseId .withdrawn workflow
      { workflow with
        firstReviewState :=
          if workflow.firstReviewState = .submitted then .draft else workflow.firstReviewState
        version := workflow.version + 1 } := by
  have hw := hL.agrees _ _ hbefore
  have hstate : (if workflow.firstReviewState = .submitted then .draft
      else workflow.firstReviewState) = ReviewState.approved ↔
      workflow.firstReviewState = .approved := by
    split
    next hsubmitted =>
      rw [hsubmitted]
      exact ⟨fun heq => (by cases heq), fun heq => (by cases heq)⟩
    next => exact Iff.rfl
  constructor
  · rw [ReviewDb.filing_of_get hcase, AchievementReviewCase.filing, hstatus]
  · exact hbefore
  · exact fun heq => (by cases heq)
  · dsimp only
    split
    · exact fun heq => (by cases heq)
    · assumption
  · exact hstate.trans hw.approved_iff
  · exact hstate.trans hw.first_iff
  · exact .inl ⟨fun heq => (by cases heq), rfl⟩
  · exact fun _ => rfl

/-- A decision on a first submission finds it waiting, and one on an update finds the
achievement approved. -/
theorem closing_of_decision {caseId : CaseId} {case : AchievementReviewCase}
    {workflow : AchievementWorkflow} {operation : ReviewOperation}
    (payload : ReviewDecisionCommand) (hcase : db.cases.get caseId = some case)
    (hstatus : case.status = .submitted)
    (hbefore : db.workflows.get case.achievementId = some workflow)
    (hstate : workflow.firstReviewState = ReviewDb.expectedState operation) :
    db.ledger.Closing case.achievementId case.revisionId caseId payload.decision.status workflow
      (decidedWorkflow now case operation workflow payload) := by
  have hw := hL.agrees _ _ hbefore
  have hfiling : db.ledger.filing caseId =
      some ⟨case.achievementId, case.revisionId, .submitted⟩ := by
    rw [ReviewDb.filing_of_get hcase, AchievementReviewCase.filing, hstatus]
  cases operation with
  | submit =>
    -- Nothing is public and nothing has been approved before.
    have hnot : workflow.firstReviewState ≠ .approved := by
      rw [hstate]
      exact fun heq => (by cases heq)
    have hpublic : workflow.publicRevisionId = none := by
      by_contra hsome
      exact hnot (hw.approved_iff.mpr hsome)
    have hfirst : workflow.firstApprovedAt = none := by
      by_contra hsome
      exact hnot (hw.first_iff.mpr hsome)
    cases hdecision : payload.decision with
    | approved =>
      constructor <;> simp [decidedWorkflow, hdecision, Decision.state, Decision.status, hfiling,
        hfirst, show db.ledger.workflow case.achievementId = some workflow from hbefore]
    | returned =>
      constructor <;> simp [decidedWorkflow, hdecision, Decision.state, Decision.status, hfiling,
        hfirst, hpublic, show db.ledger.workflow case.achievementId = some workflow from hbefore]
  | update =>
    have happroved : workflow.firstReviewState = .approved := hstate
    have hpublic := hw.approved_iff.mp happroved
    have hfirst := hw.first_iff.mp happroved
    cases hdecision : payload.decision with
    | approved =>
      constructor <;> simp [decidedWorkflow, hdecision, Decision.status, hfiling,
        happroved, hfirst, show db.ledger.workflow case.achievementId = some workflow from hbefore]
    | returned =>
      constructor <;> simp [decidedWorkflow, hdecision, Decision.status, hfiling,
        happroved, hfirst, hpublic,
        show db.ledger.workflow case.achievementId = some workflow from hbefore]

theorem move_of_change {w : ReviewWorld} {db' : ReviewDb} {call : ReviewCall} (hdb : w.db = db)
    (hfresh : call.Fresh w) (h : Change digests now db call db') :
    db.ledger.Move db'.ledger := by
  cases h with
  | nothing => exact .same
  | qualified => exact .same
  | looked call achievementId =>
    rw [ReviewDb.ledger_putWorkflow]
    exact .looked achievementId
  | submitted h =>
    subst hdb
    rw [ReviewDb.ledger_putSubmission]
    exact .filed (h.submits hfresh.1 hfresh.2)
  | withdrawn hcase hachievement hstatus hbefore _ =>
    subst hachievement
    rw [ReviewDb.ledger_putWithdrawal rfl]
    refine .closed (closing_of_withdrawal hL hcase hstatus ?_)
    rw [hbefore]
    exact workflow_of_case hL hcase
  | claimed hscope hstatus hfree =>
    rw [ReviewDb.ledger_putClaim hscope.get]
    exact .same
  | recused hscope =>
    rw [ReviewDb.ledger_putConflict]
    exact .same
  | @decided actor caseId payload case workflow projectId owner revision hscope hassigned
      hrevision hstatus hstate =>
    rw [ReviewDb.ledger_putDecision]
    exact .closed (closing_of_decision hL payload hscope.get hstatus hscope.reviewed hstate)
  | created => exact .same
  | started => exact .same
  | finished => exact .same
  | removed => exact .same

end Moves

section Runs

variable {digests : Fingerprints} {w w' : ReviewWorld}

theorem Elsewhere.ledger {db db' : ReviewDb} (h : Elsewhere db db') : db'.ledger = db.ledger := by
  unfold ReviewDb.ledger
  rw [h.workflows, h.revisions, h.cases]

theorem ReviewStep.move {call : Option ReviewCall} (hL : w.db.ledger.Consistent)
    (h : ReviewStep digests w call w') : w.db.ledger.Move w'.db.ledger := by
  cases h with
  | call c hnow hfresh => exact move_of_change hL rfl hfresh (change_after c)
  | elsewhere h =>
    rw [h.ledger]
    exact .same

theorem ReviewWorld.Initial.consistent (h : w.Initial) : w.db.ledger.Consistent := by
  have hfiling : ∀ id f, w.db.ledger.filing id ≠ some f := by
    intro id f hf
    obtain ⟨case, hget, _⟩ := ReviewDb.filing_eq.mp hf
    rw [h.cases] at hget
    cases hget
  have hrevision : ∀ id r, w.db.ledger.revision id ≠ some r := by
    intro id r hr
    change w.db.revisions.get id = some r at hr
    rw [h.revisions] at hr
    cases hr
  have hworkflow : ∀ achievement w', w.db.ledger.workflow achievement ≠ some w' := by
    intro achievement w' hw
    change w.db.workflows.get achievement = some w' at hw
    rw [h.workflows] at hw
    cases hw
  exact
    { workflow_of_revision := fun id r hr => absurd hr (hrevision id r)
      revision_of_filing := fun id f hf => absurd hf (hfiling id f)
      one_filing := fun id _ f _ hf => absurd hf (hfiling id f)
      one_number := fun id _ r _ hr => absurd hr (hrevision id r)
      one_request := fun id _ r _ hr => absurd hr (hrevision id r)
      one_pending := fun _ id _ _ _ hf => absurd hf (hfiling id _)
      pending_last := fun _ id _ _ _ _ hf => absurd hf (hfiling id _)
      agrees := fun achievement w' hw => absurd hw (hworkflow achievement w') }

/-- The rows agree in every reachable state. -/
theorem consistent_of_reach (h : (reviewSystem digests).Reach w) : w.db.ledger.Consistent := by
  induction h with
  | init hinit => exact ReviewWorld.Initial.consistent hinit
  | step _ hstep ih => exact (ReviewStep.move ih hstep).consistent ih

end Runs

section Results

variable {digests : Fingerprints} {now : Instant} {db db' : ReviewDb} {w w' : ReviewWorld}

/-- A closed case keeps its whole row. -/
theorem closed_of_change {call : ReviewCall} (hdb : w.db = db) (hfresh : call.Fresh w)
    (h : Change digests now db call db') {id : CaseId} {case : AchievementReviewCase}
    (hcase : db.cases.get id = some case) (hclosed : case.status ≠ .submitted) :
    db'.cases.get id = some case := by
  have hput : ∀ (id₀ : CaseId) (case₀ case₁ : AchievementReviewCase),
      db.cases.get id₀ = some case₀ → case₀.status = .submitted →
      (db.cases.put id₀ case₁).get id = some case := by
    intro id₀ case₀ case₁ hcase₀ hstatus
    rw [Table.get_put_of_ne _ _ ?_]
    · exact hcase
    · rintro rfl
      rw [hcase] at hcase₀
      obtain rfl := Option.some.inj hcase₀
      exact hclosed hstatus
  cases h with
  | nothing => exact hcase
  | qualified => exact hcase
  | looked => exact hcase
  | @submitted _ _ _ _ _ _ caseId _ _ _ =>
    subst hdb
    change (w.db.cases.put caseId _).get id = some case
    rw [Table.get_put_of_ne _ _ ?_]
    · exact hcase
    · rintro rfl
      rw [hfresh.2] at hcase
      cases hcase
  | withdrawn hcase₀ _ hstatus => exact hput _ _ _ hcase₀ hstatus
  | claimed hscope hstatus => exact hput _ _ _ hscope.get hstatus
  | @recused actor _ _ _ _ projectId =>
    change (db.cases.updateWhere _ _).get id = some case
    rw [Table.get_updateWhere, hcase, Option.map_some, if_neg]
    exact fun hheld => hclosed hheld.1
  | decided hscope _ _ hstatus => exact hput _ _ _ hscope.get hstatus
  | created => exact hcase
  | started => exact hcase
  | finished => exact hcase
  | removed => exact hcase

theorem ReviewStep.closed {call : Option ReviewCall} (h : ReviewStep digests w call w')
    {id : CaseId} {case : AchievementReviewCase} (hcase : w.db.cases.get id = some case)
    (hclosed : case.status ≠ .submitted) : w'.db.cases.get id = some case := by
  cases h with
  | call c hnow hfresh => exact closed_of_change rfl hfresh (change_after c) hcase hclosed
  | elsewhere h =>
    rw [← h.cases] at hcase
    exact hcase

theorem closed_of_run {l : List (ReviewWorld × Option ReviewCall × ReviewWorld)}
    (hw : (reviewSystem digests).Reach w) (hrun : (reviewSystem digests).Run w l w') {id : CaseId}
    {case : AchievementReviewCase} (hcase : w.db.cases.get id = some case)
    (hclosed : case.status ≠ .submitted) : w'.db.cases.get id = some case :=
  hrun.keeps (P := fun w => w.db.cases.get id = some case)
    (fun _ _ _ _ hcase hstep => ReviewStep.closed hstep hcase hclosed) hw hcase

theorem revision_of_run {l : List (ReviewWorld × Option ReviewCall × ReviewWorld)}
    (hw : (reviewSystem digests).Reach w) (hrun : (reviewSystem digests).Run w l w')
    {id : RevisionId} {r : AchievementRevision} (hr : w.db.revisions.get id = some r) :
    w'.db.revisions.get id = some r :=
  hrun.keeps (P := fun w => w.db.revisions.get id = some r)
    (fun _ _ _ hreach hr hstep =>
      (ReviewStep.move (consistent_of_reach hreach) hstep).revision hr) hw hr

theorem first_approved_of_run {l : List (ReviewWorld × Option ReviewCall × ReviewWorld)}
    (hw : (reviewSystem digests).Reach w) (hrun : (reviewSystem digests).Run w l w')
    {achievement : AchievementId} {t : Instant}
    (ht : ((w.db.workflows.get achievement).bind AchievementWorkflow.firstApprovedAt) = some t) :
    ((w'.db.workflows.get achievement).bind AchievementWorkflow.firstApprovedAt) = some t := by
  refine hrun.keeps (P := fun w =>
    (w.db.workflows.get achievement).bind AchievementWorkflow.firstApprovedAt = some t)
    (fun u _ u' hreach ht hstep => ?_) hw ht
  obtain ⟨wf, hwf, hfirst⟩ := Option.bind_eq_some_iff.mp ht
  obtain ⟨wf', hwf', hfirst'⟩ :=
    (ReviewStep.move (consistent_of_reach hreach) hstep).first_approved hwf hfirst
  exact Option.bind_eq_some_iff.mpr ⟨wf', hwf', hfirst'⟩

theorem createdBy_of_get (hL : db.ledger.Consistent) {id : RevisionId} {r : AchievementRevision}
    (hr : db.revisions.get id = some r) :
    db.createdBy r.achievementId r.creationRequestId = some (id, r) := by
  refine Table.find_eq hr ⟨rfl, rfl⟩ fun id' r' hr' h => ?_
  exact hL.one_request id' id r' r hr' hr h.1 h.2

/-- A request that has created a revision is answered from the rows that are there, and with
another content it is refused. -/
theorem savedRevision_replay (hL : db.ledger.Consistent) {id : RevisionId}
    {r : AchievementRevision} (hr : db.revisions.get id = some r) {actor : Actor}
    {projectId : ProjectId} {payload : SavedRevisionCommand} {operation : ReviewOperation}
    {revisionId : RevisionId} {caseId : CaseId} (hrequest : payload.requestId = r.creationRequestId)
    (h : db.savedRevision digests now actor projectId r.achievementId payload operation revisionId
      caseId = .ok db') :
    db' = db ∧ digests.saved operation payload = r.creationPayloadFingerprint := by
  have hcreated := createdBy_of_get hL hr
  rw [← hrequest] at hcreated
  rcases ReviewDb.savedRevision_ok h with ⟨id', existing, hfound, hsame, rfl⟩ |
    ⟨_, _, hfreezes, _⟩
  · rw [hcreated] at hfound
    cases hfound
    refine ⟨?_, hsame.symm⟩
    obtain ⟨wf, hwf⟩ := Option.ne_none_iff_exists'.mp (hL.workflow_of_revision id r hr)
    change db.workflows.get r.achievementId = some wf at hwf
    unfold ReviewDb.putWorkflow
    rw [hwf, Option.getD_some, Table.put_get hwf]
  · rw [hfreezes.unused] at hcreated
    cases hcreated

/-- The request that decided a case is answered from the row, and with another content it is
refused. -/
theorem decision_replay {id : CaseId} {case : AchievementReviewCase}
    (hcase : db.cases.get id = some case) {actor : Actor} {payload : ReviewDecisionCommand}
    (hrequest : case.decisionRequestId = some payload.requestId)
    (h : db.decision digests now actor id payload = .ok db') :
    db' = db ∧ case.decisionPayloadFingerprint = some (digests.decision payload) := by
  obtain ⟨case', workflow, projectId, owner, hscope, _, h⟩ := ReviewDb.decision_ok h
  have hget := hscope.get
  rw [hcase] at hget
  obtain rfl := Option.some.inj hget
  rw [if_pos hrequest] at h
  exact ⟨h.2, h.1⟩

def ReviewDb.Waits (db : ReviewDb) (achievement : AchievementId) (operation : ReviewOperation) :
    Prop :=
  ∃ id case r, db.cases.get id = some case ∧ case.achievementId = achievement ∧
    case.status = .submitted ∧ db.revisions.get case.revisionId = some r ∧ r.operation = operation

theorem ReviewDb.waits_iff {achievement : AchievementId} {operation : ReviewOperation} :
    db.Waits achievement operation ↔ db.ledger.Pending achievement operation := by
  constructor
  · rintro ⟨id, case, r, hcase, rfl, hstatus, hr, hop⟩
    refine ⟨id, case.revisionId, r, ?_, hr, hop⟩
    rw [ReviewDb.filing_of_get hcase, AchievementReviewCase.filing, hstatus]
  · rintro ⟨id, rid, r, hf, hr, hop⟩
    obtain ⟨case, hcase, hfiling⟩ := ReviewDb.filing_eq.mp hf
    obtain rfl : case.revisionId = rid := congrArg Filing.revisionId hfiling
    exact ⟨id, case, r, hcase, congrArg Filing.achievementId hfiling,
      congrArg Filing.status hfiling, hr, hop⟩

structure ReviewDb.WorkflowAgrees (db : ReviewDb) (achievement : AchievementId) : Prop where
  one_pending : ∀ id id' case case', db.cases.get id = some case →
    db.cases.get id' = some case' → case.achievementId = achievement →
    case'.achievementId = achievement → case.status = .submitted → case'.status = .submitted →
    id = id'
  submitted_iff : (db.workflows.get achievement).map AchievementWorkflow.firstReviewState =
    some .submitted ↔ db.Waits achievement .submit
  update_approved : db.Waits achievement .update →
    (db.workflows.get achievement).map AchievementWorkflow.firstReviewState = some .approved
  approved_iff : (db.workflows.get achievement).map AchievementWorkflow.firstReviewState =
    some .approved ↔ ((db.workflows.get achievement).bind AchievementWorkflow.publicRevisionId).isSome
  public_latest : ∀ rid, (db.workflows.get achievement).bind AchievementWorkflow.publicRevisionId =
    some rid → ∃ r id case, db.revisions.get rid = some r ∧ r.achievementId = achievement ∧
      db.cases.get id = some case ∧ case.achievementId = achievement ∧ case.revisionId = rid ∧
      case.status = .approved ∧
      ∀ id' case' r', db.cases.get id' = some case' → case'.achievementId = achievement →
        case'.status = .approved → db.revisions.get case'.revisionId = some r' →
        id' = id ∨ r'.number < r.number

theorem workflowAgrees (hL : db.ledger.Consistent) (achievement : AchievementId) :
    db.WorkflowAgrees achievement := by
  have hpending : ∀ id case, db.cases.get id = some case → case.status = .submitted →
      db.ledger.filing id = some ⟨case.achievementId, case.revisionId, .submitted⟩ := by
    intro id case hcase hstatus
    rw [ReviewDb.filing_of_get hcase, AchievementReviewCase.filing, hstatus]
  have hwaits : ∀ operation, db.Waits achievement operation →
      ∃ wf, db.workflows.get achievement = some wf := by
    rintro operation ⟨id, case, r, hcase, rfl, _⟩
    exact ⟨_, workflow_of_case hL hcase⟩
  constructor
  · intro id id' case case' hcase hcase' heq heq' hstatus hstatus'
    have hf := hpending id case hcase hstatus
    have hf' := hpending id' case' hcase' hstatus'
    rw [heq] at hf
    rw [heq'] at hf'
    exact hL.one_pending _ _ _ _ _ hf hf'
  · constructor
    · intro hstate
      obtain ⟨wf, hwf, hstate⟩ := Option.map_eq_some_iff.mp hstate
      exact ReviewDb.waits_iff.mpr ((hL.agrees achievement wf hwf).submitted_iff.mp hstate)
    · intro hwait
      obtain ⟨wf, hwf⟩ := hwaits _ hwait
      rw [hwf, Option.map_some,
        (hL.agrees achievement wf hwf).submitted_iff.mpr (ReviewDb.waits_iff.mp hwait)]
  · intro hwait
    obtain ⟨wf, hwf⟩ := hwaits _ hwait
    rw [hwf, Option.map_some,
      (hL.agrees achievement wf hwf).update_approved (ReviewDb.waits_iff.mp hwait)]
  · cases hwf : db.workflows.get achievement with
    | none => exact ⟨fun h => (by cases h), fun h => (by cases h)⟩
    | some wf =>
      rw [Option.map_some, Option.some_inj, Option.bind_some, Option.isSome_iff_ne_none]
      exact (hL.agrees achievement wf hwf).approved_iff
  · intro rid hpublic
    obtain ⟨wf, hwf, hpublic⟩ := Option.bind_eq_some_iff.mp hpublic
    obtain ⟨r, id, hr, hachievement, hf, hlatest⟩ :=
      (hL.agrees achievement wf hwf).public_latest rid hpublic
    obtain ⟨case, hcase, hfiling⟩ := ReviewDb.filing_eq.mp hf
    refine ⟨r, id, case, hr, hachievement, hcase, congrArg Filing.achievementId hfiling,
      congrArg Filing.revisionId hfiling, congrArg Filing.status hfiling, ?_⟩
    intro id' case' r' hcase' hof' hstatus' hr'
    have hf' : db.ledger.filing id' = some ⟨achievement, case'.revisionId, .approved⟩ := by
      rw [ReviewDb.filing_of_get hcase', AchievementReviewCase.filing, hstatus', hof']
    rcases Nat.lt_or_eq_of_le (hlatest id' _ r' hf' hr') with hlt | hnumber
    · exact .inr hlt
    · -- The same number is the same revision, and this is the revision of one case.
      obtain ⟨r₀, hr₀, hof₀⟩ := hL.revision_of_filing id' _ hf'
      obtain rfl : r₀ = r' := Option.some.inj (hr₀.symm.trans hr')
      have hrevision := hL.one_number _ _ r₀ r hr₀ hr (hof₀.trans hachievement.symm) hnumber
      exact .inl (hL.one_filing _ _ _ _ hf' hf hrevision)

/-- A case that waits carries no decision. -/
theorem undecided_of_change {call : ReviewCall} (h : Change digests now db call db')
    (hall : ∀ id case, db.cases.get id = some case → case.status = .submitted →
      case.decisionRequestId = none) {id : CaseId} {case : AchievementReviewCase}
    (hcase : db'.cases.get id = some case) (hstatus : case.status = .submitted) :
    case.decisionRequestId = none := by
  have hput : ∀ (id₀ : CaseId) (case₀ : AchievementReviewCase),
      (case₀.status = .submitted → case₀.decisionRequestId = none) →
      (db.cases.put id₀ case₀).get id = some case → case.decisionRequestId = none := by
    intro id₀ case₀ hnone hget
    rcases Table.get_put_eq_some hget with ⟨_, rfl⟩ | ⟨_, hold⟩
    · exact hnone hstatus
    · exact hall id case hold hstatus
  cases h with
  | nothing => exact hall id case hcase hstatus
  | qualified => exact hall id case hcase hstatus
  | looked => exact hall id case hcase hstatus
  | submitted => exact hput _ _ (fun _ => rfl) hcase
  | withdrawn => exact hput _ _ (fun heq => (by cases heq)) hcase
  | @claimed actor _ _ case₀ _ _ _ hscope hopen =>
    exact hput _ { case₀ with assignedUserId := some actor.userId, version := case₀.version + 1 }
      (fun _ => hall _ case₀ hscope.get hopen) hcase
  | recused =>
    change (db.cases.updateWhere _ _).get id = some case at hcase
    rw [Table.get_updateWhere] at hcase
    obtain ⟨case₀, hcase₀, heq⟩ := Option.map_eq_some_iff.mp hcase
    split at heq
    · subst heq
      exact hall id case₀ hcase₀ hstatus
    · subst heq
      exact hall id case₀ hcase₀ hstatus
  | @decided _ _ payload =>
    exact hput _ _ (fun heq => absurd heq payload.decision.status_ne_submitted) hcase
  | created => exact hall id case hcase hstatus
  | started => exact hall id case hcase hstatus
  | finished => exact hall id case hcase hstatus
  | removed => exact hall id case hcase hstatus

theorem undecided_of_reach (hw : (reviewSystem digests).Reach w) :
    ∀ id case, w.db.cases.get id = some case → case.status = .submitted →
      case.decisionRequestId = none := by
  induction hw with
  | init hinit =>
    intro id case hcase
    rw [ReviewWorld.Initial.cases hinit] at hcase
    cases hcase
  | step _ hstep ih =>
    intro id case hcase hstatus
    cases hstep with
    | call c hnow hfresh => exact undecided_of_change (change_after c) ih hcase hstatus
    | elsewhere h =>
      change _ = _ at hcase
      rw [h.cases] at hcase
      exact ih id case hcase hstatus

/-- A submission that is not refused leaves the revision of its request. -/
theorem revision_of_savedRevision {actor : Actor} {projectId : ProjectId}
    {achievementId : AchievementId} {payload : SavedRevisionCommand}
    {operation : ReviewOperation} {revisionId : RevisionId} {caseId : CaseId}
    (h : db.savedRevision digests now actor projectId achievementId payload operation revisionId
      caseId = .ok db') :
    ∃ id r, db'.revisions.get id = some r ∧ r.achievementId = achievementId ∧
      r.creationRequestId = payload.requestId ∧
      r.creationPayloadFingerprint = digests.saved operation payload := by
  rcases ReviewDb.savedRevision_ok h with ⟨id, existing, hfound, hsame, rfl⟩ |
    ⟨revision, workflow, hfreezes, rfl⟩
  · obtain ⟨hget, hof, hrequest⟩ := Table.find_some hfound
    exact ⟨id, existing, hget, hof, hrequest, hsame⟩
  · exact ⟨revisionId, revision, Table.get_put_self _ _ _, hfreezes.achievement_eq,
      hfreezes.request_eq, hfreezes.fingerprint_eq⟩

/-- A decision that is not refused leaves its request on the case, which is closed. -/
theorem case_of_decision (hopen : ∀ id case, db.cases.get id = some case →
      case.status = .submitted → case.decisionRequestId = none) {actor : Actor} {id : CaseId}
    {payload : ReviewDecisionCommand}
    (h : db.decision digests now actor id payload = .ok db') :
    ∃ case, db'.cases.get id = some case ∧ case.status ≠ .submitted ∧
      case.decisionRequestId = some payload.requestId ∧
      case.decisionPayloadFingerprint = some (digests.decision payload) := by
  obtain ⟨case, workflow, projectId, owner, hscope, _, h⟩ := ReviewDb.decision_ok h
  split at h
  next hreplay =>
    obtain ⟨hsame, rfl⟩ := h
    refine ⟨case, hscope.get, fun hstatus => ?_, hreplay, hsame⟩
    rw [hopen id case hscope.get hstatus] at hreplay
    cases hreplay
  next =>
    obtain ⟨revision, _, _, _, _, _, rfl⟩ := h
    exact ⟨_, Table.get_put_self _ _ _, payload.decision.status_ne_submitted, rfl, rfl⟩

/-- A command leaves nothing, and unless its content is the one before it is refused. -/
def LeavesNothing (digests : Fingerprints) (w : ReviewWorld) (call : ReviewCall) (same : Prop) :
    Prop :=
  ∀ now, call.after digests now w.db = w.db ∧
    (¬ same → ∃ e, call.perform digests now w.db = .error e)

theorem leavesNothing_of_ok {call : ReviewCall} {same : Prop}
    (h : ∀ now db', call.perform digests now w.db = .ok db' → db' = w.db ∧ same) :
    LeavesNothing digests w call same := by
  intro now
  unfold ReviewCall.after
  cases hperform : call.perform digests now w.db with
  | error e => exact ⟨rfl, fun _ => ⟨e, rfl⟩⟩
  | ok db' =>
    obtain ⟨rfl, hsame⟩ := h now db' hperform
    exact ⟨rfl, fun hnot => absurd hsame hnot⟩

/-- In every run the workflow of an achievement agrees with its cases and revisions, a first
approval keeps its date, a closed case keeps its row, and a request is answered once. -/
theorem review_workflow_agrees (digests : Fingerprints) {w : ReviewWorld}
    (hw : (reviewSystem digests).Reach w) :
    (∀ achievement, w.db.WorkflowAgrees achievement) ∧
    (∀ w' l, (reviewSystem digests).Run w l w' →
      (∀ achievement t,
        (w.db.workflows.get achievement).bind AchievementWorkflow.firstApprovedAt = some t →
        (w'.db.workflows.get achievement).bind AchievementWorkflow.firstApprovedAt = some t) ∧
      ∀ id case, w.db.cases.get id = some case → case.status ≠ .submitted →
        w'.db.cases.get id = some case) ∧
    (∀ actor projectId achievementId payload operation revisionId caseId now db' w' l,
      w.now ≤ now → w.db.revisions.get revisionId = none → w.db.cases.get caseId = none →
      w.db.savedRevision digests now actor projectId achievementId payload operation revisionId
        caseId = .ok db' →
      (reviewSystem digests).Run ⟨db', now, w.attempts⟩ l w' →
      ∀ actor' projectId' payload' operation' revisionId' caseId',
        payload'.requestId = payload.requestId →
        LeavesNothing digests w'
          (.savedRevision actor' projectId' achievementId payload' operation' revisionId' caseId')
          (digests.saved operation' payload' = digests.saved operation payload)) ∧
    ∀ actor caseId payload now db' w' l, w.now ≤ now →
      w.db.decision digests now actor caseId payload = .ok db' →
      (reviewSystem digests).Run ⟨db', now, w.attempts⟩ l w' →
      ∀ actor' payload', payload'.requestId = payload.requestId →
        LeavesNothing digests w' (.decision actor' caseId payload')
          (digests.decision payload' = digests.decision payload) := by
  have hL := consistent_of_reach hw
  refine ⟨workflowAgrees hL, ?_, ?_, ?_⟩
  · intro w' l hrun
    exact ⟨fun _ _ => first_approved_of_run hw hrun, fun _ _ => closed_of_run hw hrun⟩
  · intro actor projectId achievementId payload operation revisionId caseId now db' w' l
      hnow hrevision hcase hok hrun actor' projectId' payload' operation' revisionId' caseId' hrequest
    have hreach := reach_call hw
      (.savedRevision actor projectId achievementId payload operation revisionId caseId) hnow
      ⟨hrevision, hcase⟩ hok
    obtain ⟨id, r, hr, rfl, hcreated, hfingerprint⟩ := revision_of_savedRevision hok
    have hr' := revision_of_run hreach hrun hr
    refine leavesNothing_of_ok fun now' db'' h => ?_
    obtain ⟨hsame, hcontent⟩ := savedRevision_replay (consistent_of_reach (hrun.reach hreach)) hr'
      (hrequest.trans hcreated.symm) h
    exact ⟨hsame, hcontent.trans hfingerprint⟩
  · intro actor caseId payload now db' w' l hnow hok hrun actor' payload' hrequest
    have hreach := reach_call hw (.decision actor caseId payload) hnow trivial hok
    obtain ⟨case, hcase, hclosed, hdecided, hfingerprint⟩ :=
      case_of_decision (undecided_of_reach hw) hok
    have hcase' := closed_of_run hreach hrun hcase hclosed
    refine leavesNothing_of_ok fun now' db'' h => ?_
    rw [← hrequest] at hdecided
    obtain ⟨hsame, hcontent⟩ := decision_replay hcase' hdecided h
    rw [hfingerprint] at hcontent
    exact ⟨hsame, (Option.some.inj hcontent).symm⟩

end Results

section Scene

/-- A student owns a project with one achievement, and another student reviews. -/
def sceneDb : ReviewDb where
  users := (Table.empty.put 1 ⟨.student, .active⟩).put 2 ⟨.student, .active⟩
  totp := .empty
  grants := Table.empty.put 2 ⟨true, 1⟩
  qualifications := Table.empty.put 1 ⟨true, 2, 1, ⟨['a'], ['b'], ['c'], ['d']⟩, 0⟩
  profiles := Table.empty.put 1 ⟨⟨['a'], ['b'], ['c'], ['d']⟩, 1⟩
  projects := Table.empty.put 1 ⟨1, ⟨['t'], ['s'], ['d'], ['g'], ['m']⟩, 1⟩
  achievements := Table.empty.put 1 ⟨1, ⟨['t'], ['d'], [], []⟩, 1⟩
  workflows := .empty
  revisions := .empty
  cases := .empty
  conflicts := .empty
  evidence := .empty

def sceneDigests : Fingerprints where
  saved operation payload :=
    (if operation = .submit then 's' else 'u') :: List.replicate payload.requestId 'i' ++
      List.replicate payload.workflowVersion 'w'
  decision payload := (if payload.decision = .approved then 'a' else 'r') :: payload.reason
  intent contentType size := contentType ++ List.replicate size 'b'

def sceneOwner : Actor := ⟨1, .student⟩

def sceneReviewer : Actor := ⟨2, .student⟩

def sceneIntent : EvidenceIntentCreate := ⟨1, ['p'], 3⟩

def sceneSubmit (requestId workflowVersion : ℕ) : SavedRevisionCommand where
  requestId := requestId
  workflowVersion := workflowVersion
  projectVersion := 1
  achievementVersion := 1
  evidenceIds := [1]
  unique_materials := List.nodup_singleton 1
  some_materials := le_refl 1
  few_materials := by decide

def sceneReturn : ReviewDecisionCommand where
  version := 2
  requestId := 7
  revisionId := 1
  decision := .returned
  reason := ['x']
  trim_reason := by decide
  require_return_reason := fun _ => List.cons_ne_nil _ _

def sceneApprove : ReviewDecisionCommand where
  version := 2
  requestId := 7
  revisionId := 2
  decision := .approved
  reason := []
  trim_reason := rfl
  require_return_reason := fun h => (by cases h)

def sceneMaterial : AchievementEvidence :=
  { ReviewDb.newMaterial sceneDigests 0 1 sceneIntent ['k'] with
    state := .ready ['h']
    version := 3 }

def sceneAnnounced : ReviewDb :=
  sceneDb.putMaterial 1 (ReviewDb.newMaterial sceneDigests 0 1 sceneIntent ['k'])

def sceneChecking : ReviewDb :=
  sceneAnnounced.putMaterial 1
    { ReviewDb.newMaterial sceneDigests 0 1 sceneIntent ['k'] with
      state := .checking 1 150
      version := 2 }

def sceneReady : ReviewDb := sceneChecking.putMaterial 1 sceneMaterial

def sceneRevision (number requestId workflowVersion : ℕ) : AchievementRevision where
  achievementId := 1
  number := number
  creationRequestId := requestId
  creationPayloadFingerprint := sceneDigests.saved .submit (sceneSubmit requestId workflowVersion)
  operation := .submit
  projectVersion := 1
  achievementVersion := 1
  projectContent := ⟨['t'], ['s'], ['d'], ['g'], ['m']⟩
  achievementContent := ⟨['t'], ['d'], [], []⟩
  ownerProfile := ⟨['a'], ['b'], ['c'], ['d']⟩
  createdAt := 0
  evidence := [(1, ['h'])]

def sceneSubmitted : ReviewDb :=
  sceneReady.putSubmission 0 1 1 1 (sceneRevision 1 1 1) newWorkflow

theorem scene_submit :
    sceneReady.savedRevision sceneDigests 0 sceneOwner 1 1 (sceneSubmit 1 1) .submit 1 1 =
      .ok sceneSubmitted := by
  have hcreated : sceneReady.createdBy 1 (sceneSubmit 1 1).requestId = none :=
    Table.find_eq_none fun k r h => (by cases h)
  have hpending : sceneReady.pendingCase 1 = none :=
    Table.find_eq_none fun k r h => (by cases h)
  unfold ReviewDb.savedRevision
  rw [hcreated, hpending]
  rfl

theorem scene_intent :
    sceneDb.createIntent sceneDigests 0 sceneOwner 1 1 sceneIntent 1 ['k'] = .ok sceneAnnounced := by
  have hpending : sceneDb.pendingCase 1 = none :=
    Table.find_eq_none fun k r h => (by cases h)
  unfold ReviewDb.createIntent ReviewDb.requireEditable
  rw [hpending, Table.find_eq_none fun k r h => (by cases h)]
  rfl

theorem scene_start :
    sceneAnnounced.startCheck 0 sceneOwner 1 1 1 1 = .ok sceneChecking := by
  have hpending : sceneAnnounced.pendingCase 1 = none :=
    Table.find_eq_none fun k r h => (by cases h)
  unfold ReviewDb.startCheck ReviewDb.requireEditable
  rw [hpending]
  rfl

theorem scene_finish :
    sceneChecking.finishCheck 0 sceneOwner 1 1 1 1 (.passed ['h']) = .ok (sceneReady, .ok ()) := by
  have hpending : sceneChecking.pendingCase 1 = none :=
    Table.find_eq_none fun k r h => (by cases h)
  unfold ReviewDb.finishCheck ReviewDb.requireEditable
  rw [hpending]
  rfl

def sceneCase : AchievementReviewCase := ⟨1, 1, .submitted, 1, none, none, 0, none, none, none⟩

def sceneClaimed : ReviewDb := sceneSubmitted.putClaim 1 sceneCase 2

def sceneReturned : ReviewDb :=
  sceneClaimed.putDecision sceneDigests 0 1 { sceneCase with assignedUserId := some 2, version := 2 }
    .submit ⟨.submitted, 2, none, none, none⟩ sceneReturn

def sceneResubmitted : ReviewDb :=
  sceneReturned.putSubmission 0 1 2 2 (sceneRevision 2 2 3) ⟨.returned, 3, none, none, none⟩

def sceneReclaimed : ReviewDb :=
  sceneResubmitted.putClaim 2 { sceneCase with revisionId := 2 } 2

theorem scene_claim : sceneSubmitted.claim sceneReviewer 1 1 = .ok sceneClaimed := rfl

theorem scene_return :
    sceneClaimed.decision sceneDigests 0 sceneReviewer 1 sceneReturn = .ok sceneReturned := rfl

theorem scene_resubmit :
    sceneReturned.savedRevision sceneDigests 0 sceneOwner 1 1 (sceneSubmit 2 3) .submit 2 2 =
      .ok sceneResubmitted := by
  have hcreated : sceneReturned.createdBy 1 (sceneSubmit 2 3).requestId = none := by
    refine Table.find_eq_none fun id r h hrequest => ?_
    rcases Table.get_put_eq_some h with ⟨_, rfl⟩ | ⟨_, hold⟩
    · exact absurd hrequest.2 (by decide)
    · cases hold
  have hpending : sceneReturned.pendingCase 1 = none := by
    refine Table.find_eq_none fun id case h hwaits => ?_
    rcases Table.get_put_eq_some h with ⟨_, rfl⟩ | ⟨hne, hold⟩
    · exact absurd hwaits.2 (by decide)
    · rcases Table.get_put_eq_some hold with ⟨heq, _⟩ | ⟨_, hold⟩
      · exact hne heq
      · rcases Table.get_put_eq_some hold with ⟨heq, _⟩ | ⟨_, hold⟩
        · exact hne heq
        · cases hold
  unfold ReviewDb.savedRevision
  rw [hcreated, hpending]
  rfl

theorem scene_reclaim : sceneResubmitted.claim sceneReviewer 2 1 = .ok sceneReclaimed := rfl

def sceneWorld (db : ReviewDb) : ReviewWorld := ⟨db, 0, Table.empty.put 1 1⟩

theorem reach_ready : (reviewSystem sceneDigests).Reach (sceneWorld sceneReady) := by
  have hinit : (reviewSystem sceneDigests).Reach ⟨sceneDb, 0, .empty⟩ :=
    .init ⟨rfl, rfl, rfl, rfl, rfl, rfl⟩
  have hintent := reach_call hinit (.createIntent sceneOwner 1 1 sceneIntent 1 ['k']) (le_refl 0) rfl scene_intent
  have hstart := reach_call hintent (.startCheck sceneOwner 1 1 1 1) (le_refl 0) rfl scene_start
  have hfinish : (ReviewCall.finishCheck sceneOwner 1 1 1 1 (.passed ['h'])).perform sceneDigests 0
      sceneChecking = .ok sceneReady := congrArg (Except.map Prod.fst) scene_finish
  exact reach_call hstart (.finishCheck sceneOwner 1 1 1 1 (.passed ['h'])) (le_refl 0) trivial hfinish

theorem reach_submitted : (reviewSystem sceneDigests).Reach (sceneWorld sceneSubmitted) :=
  reach_call reach_ready (.savedRevision sceneOwner 1 1 (sceneSubmit 1 1) .submit 1 1) (le_refl 0)
    ⟨rfl, rfl⟩ scene_submit

theorem reach_claimed : (reviewSystem sceneDigests).Reach (sceneWorld sceneClaimed) :=
  reach_call reach_submitted (.claim sceneReviewer 1 1) (le_refl 0) trivial scene_claim

theorem reach_returned : (reviewSystem sceneDigests).Reach (sceneWorld sceneReturned) :=
  reach_call reach_claimed (.decision sceneReviewer 1 sceneReturn) (le_refl 0) trivial scene_return

theorem reach_reclaimed : (reviewSystem sceneDigests).Reach (sceneWorld sceneReclaimed) := by
  have hsubmit := reach_call reach_returned
    (.savedRevision sceneOwner 1 1 (sceneSubmit 2 3) .submit 2 2) (le_refl 0) ⟨rfl, rfl⟩
    scene_resubmit
  exact reach_call hsubmit (.claim sceneReviewer 2 1) (le_refl 0) trivial scene_reclaim

/-- What holds in every run holds of the scene, where the second case waits. -/
theorem scene_agrees : sceneReclaimed.WorkflowAgrees 1 :=
  (review_workflow_agrees sceneDigests reach_reclaimed).1 1

/-- The request id of the first decision decides the second case, with another content. -/
theorem decision_request_reused :
    ¬ ∀ (digests : Fingerprints) (w : ReviewWorld), (reviewSystem digests).Reach w →
      ∀ (id id' : CaseId) (case case' : AchievementReviewCase), w.db.cases.get id = some case →
        w.db.cases.get id' = some case' → case.achievementId = case'.achievementId →
        ∀ (actor : Actor) (payload : ReviewDecisionCommand),
          case.decisionRequestId = some payload.requestId →
          case.decisionPayloadFingerprint ≠ some (digests.decision payload) →
          ∃ e, (ReviewCall.decision actor id' payload).perform digests w.now w.db = .error e := by
  intro h
  obtain ⟨e, he⟩ := h sceneDigests (sceneWorld sceneReclaimed) reach_reclaimed 1 2 _ _ rfl rfl rfl
    sceneReviewer sceneApprove rfl (by decide)
  have hok : ((ReviewCall.decision sceneReviewer 2 sceneApprove).perform sceneDigests
      (sceneWorld sceneReclaimed).now (sceneWorld sceneReclaimed).db).isOk = true := rfl
  rw [he] at hok
  cases hok

end Scene

end CampusQuest.Innovation
