import CampusQuest.ReviewRows

/-!
The commands of the owner and of the operators on the review of an achievement. Each is one
transaction: it locks the accounts, the project, the achievement, the workflow and the case
before it judges them, so what it reads before its locks is read again under them.
-/

namespace CampusQuest.Innovation

open Guards Tables
open Lifecycle (Account UserStatus)

structure SavedRevisionCommand where
  requestId : RequestId
  workflowVersion : ℕ
  projectVersion : ℕ
  achievementVersion : ℕ
  evidenceIds : List EvidenceId
  unique_materials : evidenceIds.Nodup
  some_materials : 1 ≤ evidenceIds.length
  few_materials : evidenceIds.length ≤ 5
  deriving DecidableEq

structure WithdrawCommand where
  workflowVersion : ℕ
  caseId : CaseId
  caseVersion : ℕ
  deriving DecidableEq

inductive Decision
  | approved
  | returned
  deriving DecidableEq, Repr

namespace Decision

def status : Decision → CaseStatus
  | approved => .approved
  | returned => .returned

def state : Decision → ReviewState
  | approved => .approved
  | returned => .returned

theorem status_ne_submitted (decision : Decision) : decision.status ≠ .submitted := by
  cases decision <;> exact fun h => (by cases h)

end Decision

structure ReviewDecisionCommand where
  version : ℕ
  requestId : RequestId
  revisionId : RevisionId
  decision : Decision
  reason : Text
  trim_reason : strip reason = reason
  require_return_reason : decision = .returned → reason ≠ []
  deriving DecidableEq

/-- The hexadecimal digests of the canonical JSON of the commands, and of a file that is
announced. -/
structure Fingerprints where
  saved : ReviewOperation → SavedRevisionCommand → Text
  decision : ReviewDecisionCommand → Text
  intent : Text → ℕ → Text

namespace ReviewDb

section Owner

variable (db : ReviewDb)

def owned (actor : Actor) (projectId : ProjectId) (achievementId : AchievementId) :
    Answer (ProjectDraft × AchievementDraft × AchievementWorkflow) := do
  db.requireStudent actor
  let project ← orRefuse (.notFound "项目或成果草稿不存在")
    ((db.projects.get projectId).filter fun p => p.ownerUserId = actor.userId)
  let achievement ← orRefuse (.notFound "项目或成果草稿不存在")
    ((db.achievements.get achievementId).filter fun a => a.projectId = projectId)
  .ok (project, achievement, (db.workflows.get achievementId).getD newWorkflow)

def createdBy (achievementId : AchievementId) (requestId : RequestId) :
    Option (RevisionId × AchievementRevision) :=
  db.revisions.find fun _ r => r.achievementId = achievementId ∧ r.creationRequestId = requestId

def usableDigest (achievementId : AchievementId) (id : EvidenceId) : Option Text :=
  (db.evidence.get id).bind fun row =>
    match row.state with
    | .ready sha256 =>
      if row.achievementId = achievementId ∧ row.removedAt = none then some sha256 else none
    | _ => none

def materials (achievementId : AchievementId) (ids : List EvidenceId) : List (EvidenceId × Text) :=
  ids.filterMap fun id => (db.usableDigest achievementId id).map (id, ·)

def putWorkflow (achievementId : AchievementId) : ReviewDb :=
  { db with
    workflows := db.workflows.put achievementId
      ((db.workflows.get achievementId).getD newWorkflow) }

def putSubmission (now : Instant) (achievementId : AchievementId) (revisionId : RevisionId)
    (caseId : CaseId) (revision : AchievementRevision) (workflow : AchievementWorkflow) : ReviewDb :=
  { db with
    revisions := db.revisions.put revisionId revision
    evidence := db.evidence.updateWhere (fun id _ => id ∈ revision.evidence.map Prod.fst)
      fun row => { row with referenced := true }
    cases := db.cases.put caseId
      { achievementId := achievementId
        revisionId := revisionId
        status := .submitted
        version := 1
        assignedUserId := none
        reason := none
        submittedAt := now
        decidedAt := none
        decisionRequestId := none
        decisionPayloadFingerprint := none }
    workflows := db.workflows.put achievementId
      { workflow with
        firstReviewState :=
          if revision.operation = .submit then .submitted else workflow.firstReviewState
        version := workflow.version + 1 } }

/-- `_saved_revision`, with the ids of the rows that it may create. -/
def savedRevision (digests : Fingerprints) (now : Instant) (actor : Actor)
    (projectId : ProjectId) (achievementId : AchievementId) (payload : SavedRevisionCommand)
    (operation : ReviewOperation) (revisionId : RevisionId) (caseId : CaseId) :
    Answer ReviewDb := do
  let (project, achievement, workflow) ← db.owned actor projectId achievementId
  match db.createdBy achievementId payload.requestId with
  | some (_, existing) => do
    ensure (existing.creationPayloadFingerprint = digests.saved operation payload)
      (.conflict "这次请求已用于其他提交内容")
    .ok (db.putWorkflow achievementId)
  | none => do
    ensure ((db.qualifications.get actor.userId).any fun q => q.approved)
      (.conflict "请先申请并开通负责人资格")
    let profile ← orRefuse (.conflict "请先保存姓名、学号、专业、年级")
      ((db.profiles.get actor.userId).filter fun p => p.content.Filled)
    ensure project.content.Filled (.conflict "请先完善并保存项目五项概况")
    ensure (strip achievement.content.title ≠ [] ∧ strip achievement.content.description ≠ [])
      (.conflict "请先保存成果名称和说明")
    ensure (workflow.version = payload.workflowVersion ∧
        project.version = payload.projectVersion ∧
        achievement.version = payload.achievementVersion)
      (.conflict "已保存版本发生变化，请刷新状态后重试")
    ensure (operation = .submit →
        workflow.firstReviewState = .draft ∨ workflow.firstReviewState = .returned)
      (.conflict "当前成果不能重复首次提交")
    ensure (operation = .update → workflow.firstReviewState = .approved)
      (.conflict "首次核实通过后才能提交更新复审")
    ensure (db.pendingCase achievementId = none)
      (.conflict "成果正在核实，请先撤回再修改或重新提交")
    let materials := db.materials achievementId payload.evidenceIds
    ensure (materials.length = payload.evidenceIds.length)
      (.conflict "所选证明不属于该成果或尚未通过检查")
    .ok (db.putSubmission now achievementId revisionId caseId
      { achievementId := achievementId
        number := db.maxNumber achievementId + 1
        creationRequestId := payload.requestId
        creationPayloadFingerprint := digests.saved operation payload
        operation := operation
        projectVersion := project.version
        achievementVersion := achievement.version
        projectContent := project.content
        achievementContent := achievement.content
        ownerProfile := profile.content
        createdAt := now
        evidence := materials } workflow)

def workflow (actor : Actor) (projectId : ProjectId) (achievementId : AchievementId) :
    Answer ReviewDb := do
  let _ ← db.owned actor projectId achievementId
  .ok (db.putWorkflow achievementId)

/-- A case goes to `WITHDRAWN`; a first submission goes back to a draft. -/
def putWithdrawal (achievementId : AchievementId) (caseId : CaseId)
    (case : AchievementReviewCase) (workflow : AchievementWorkflow) : ReviewDb :=
  { db with
    cases := db.cases.put caseId { case with status := .withdrawn, version := case.version + 1 }
    workflows := db.workflows.put achievementId
      { workflow with
        firstReviewState :=
          if workflow.firstReviewState = .submitted then .draft else workflow.firstReviewState
        version := workflow.version + 1 } }

def withdraw (actor : Actor) (projectId : ProjectId) (achievementId : AchievementId)
    (payload : WithdrawCommand) : Answer ReviewDb := do
  let (_, _, workflow) ← db.owned actor projectId achievementId
  let case ← orRefuse (.notFound "项目或成果草稿不存在")
    ((db.cases.get payload.caseId).filter fun c => c.achievementId = achievementId)
  ensure ((workflow.firstReviewState = .submitted ∨ workflow.firstReviewState = .approved) ∧
      workflow.version = payload.workflowVersion ∧ case.status = .submitted ∧
      case.version = payload.caseVersion)
    (.conflict "核实状态已变更，请刷新后再操作")
  .ok (db.putWithdrawal achievementId payload.caseId case workflow)

end Owner

section Operator

def forbidden : InnovationError := .permissionDenied "当前账号无权审核或读取该条目"

def missing : InnovationError := .notFound "核实条目不存在"

def assigned (case : AchievementReviewCase) (actor : Actor) : Answer Unit := do
  ensure (case.status = .submitted) (.conflict "该核实条目已关闭，请刷新队列")
  ensure (case.assignedUserId = some actor.userId) forbidden

variable (db : ReviewDb)

def authority (actor : Actor) (owner : Option UserId) : Answer Unit := do
  ensure (actor.role = .student ∧ db.activeStudent actor.userId = true) forbidden
  ensure ((db.grants.get actor.userId).any OperationsGrant.enabled) forbidden
  match owner with
  | none => .ok ()
  | some owner => do
    ensure (owner ≠ actor.userId) forbidden
    ensure (db.activeStudent owner = true) (.conflict "负责人账号当前不可用，暂停核实")
    ensure ((db.qualifications.get owner).any fun q => q.approved)
      (.conflict "负责人资格当前不可用，暂停核实")

def caseScope (caseId : CaseId) : Option (AchievementReviewCase × ProjectId × UserId) :=
  (db.cases.get caseId).bind fun case =>
    (db.scopeOf case.achievementId).map fun scope => (case, scope.1, scope.2.ownerUserId)

def scope (actor : Actor) (caseId : CaseId) (allowConflict : Bool) :
    Answer (AchievementReviewCase × AchievementWorkflow × ProjectId × UserId) :=
  match db.caseScope caseId with
  | none => do
    db.authority actor none
    .error missing
  | some (case, projectId, owner) => do
    db.authority actor (some owner)
    let workflow ← orRefuse missing (db.workflows.get case.achievementId)
    ensure (db.conflicts.get (projectId, actor.userId) = none ∨ allowConflict = true) forbidden
    .ok (case, workflow, projectId, owner)

/-- `_valid_assignee`: an active student whose grant is enabled and who has declared no
conflict. -/
def validAssignee (projectId : ProjectId) (user : UserId) : Bool :=
  db.activeStudent user && (db.grants.get user).any OperationsGrant.enabled &&
    (db.conflicts.get (projectId, user)).isNone

def putClaim (caseId : CaseId) (case : AchievementReviewCase) (user : UserId) : ReviewDb :=
  { db with
    cases := db.cases.put caseId
      { case with assignedUserId := some user, version := case.version + 1 } }

def claim (actor : Actor) (caseId : CaseId) (version : ℕ) : Answer ReviewDb := do
  let (case, _, projectId, _) ← db.scope actor caseId false
  ensure (case.status = .submitted) (.conflict "该核实条目已关闭")
  if case.assignedUserId = some actor.userId ∧
      (version = case.version ∨ version + 1 = case.version) then
    .ok db
  else do
    ensure (case.version = version) (.conflict "该条目已被领取或更新，请刷新队列")
    ensure ((case.assignedUserId.any fun u => db.validAssignee projectId u) = false)
      (.conflict "该条目已被领取或更新，请刷新队列")
    .ok (db.putClaim caseId case actor.userId)

def held (projectId : ProjectId) (user : UserId) (case : AchievementReviewCase) : Prop :=
  case.status = .submitted ∧ case.assignedUserId = some user ∧
    (db.scopeOf case.achievementId).map Prod.fst = some projectId

instance (projectId : ProjectId) (user : UserId) (case : AchievementReviewCase) :
    Decidable (db.held projectId user case) :=
  inferInstanceAs (Decidable (_ ∧ _ ∧ _))

/-- The conflict is on record, and every pending case that the operator holds in the project is
free again. -/
def putConflict (now : Instant) (projectId : ProjectId) (user : UserId) : ReviewDb :=
  { db with
    conflicts :=
      if db.conflicts.get (projectId, user) = none then db.conflicts.put (projectId, user) now
      else db.conflicts
    cases := db.cases.updateWhere (fun _ case => db.held projectId user case)
      fun case => { case with assignedUserId := none, version := case.version + 1 } }

def declareConflict (now : Instant) (actor : Actor) (caseId : CaseId) (version : ℕ) :
    Answer ReviewDb := do
  let (case, _, projectId, _) ← db.scope actor caseId true
  ensure (case.status = .submitted ∧ case.version = version)
    (.conflict "核实条目已变更，请刷新后声明回避")
  .ok (db.putConflict now projectId actor.userId)

/-- The first transaction of `detail`, which leaves the record of the access. -/
def openDetail (actor : Actor) (caseId : CaseId) : Answer Unit := do
  let (case, _, _, _) ← db.scope actor caseId false
  assigned case actor

def detail (actor : Actor) (caseId : CaseId) : Answer (AchievementReviewCase × AchievementRevision) := do
  let (case, _, _, _) ← db.scope actor caseId false
  assigned case actor
  let revision ← orRefuse (.runtime "review revision missing") (db.revisions.get case.revisionId)
  .ok (case, revision)

def expectedState : ReviewOperation → ReviewState
  | .submit => .submitted
  | .update => .approved

def putDecision (digests : Fingerprints) (now : Instant) (caseId : CaseId)
    (case : AchievementReviewCase) (operation : ReviewOperation) (workflow : AchievementWorkflow)
    (payload : ReviewDecisionCommand) : ReviewDb :=
  { db with
    cases := db.cases.put caseId
      { case with
        status := payload.decision.status
        reason := if payload.reason = [] then none else some payload.reason
        decidedAt := some now
        decisionRequestId := some payload.requestId
        decisionPayloadFingerprint := some (digests.decision payload)
        version := case.version + 1 }
    workflows := db.workflows.put case.achievementId
      { firstReviewState :=
          if operation = .submit then payload.decision.state else workflow.firstReviewState
        version := workflow.version + 1
        publicRevisionId :=
          if payload.decision = .approved then some case.revisionId else workflow.publicRevisionId
        firstApprovedAt :=
          if payload.decision = .approved ∧ operation = .submit then some now
          else workflow.firstApprovedAt
        latestUpdateAt :=
          if payload.decision = .approved then some now else workflow.latestUpdateAt } }

def decision (digests : Fingerprints) (now : Instant) (actor : Actor) (caseId : CaseId)
    (payload : ReviewDecisionCommand) : Answer ReviewDb := do
  let (case, workflow, _, _) ← db.scope actor caseId false
  ensure (case.assignedUserId = some actor.userId) forbidden
  if case.decisionRequestId = some payload.requestId then do
    ensure (case.decisionPayloadFingerprint = some (digests.decision payload))
      (.conflict "这次决定请求已用于其他内容")
    .ok db
  else do
    let revision ← orRefuse (.runtime "review revision missing") (db.revisions.get case.revisionId)
    ensure (case.status = .submitted ∧
        workflow.firstReviewState = expectedState revision.operation ∧
        case.version = payload.version ∧ case.revisionId = payload.revisionId)
      (.conflict "核实条目或版本已变更，请刷新后决定")
    .ok (db.putDecision digests now caseId case revision.operation workflow payload)

/-- The first transaction of `read_content`: the address of the material, its digest and the
version of the case. -/
def openContent (actor : Actor) (caseId : CaseId) (evidenceId : EvidenceId) :
    Answer (Text × Text × ℕ) := do
  let (case, _, _, _) ← db.scope actor caseId false
  assigned case actor
  let sha256 ← orRefuse missing
    ((db.revisions.get case.revisionId).bind fun r => r.evidence.lookup evidenceId)
  let material ← orRefuse missing
    ((db.evidence.get evidenceId).filter fun row => row.state = .ready sha256)
  .ok (material.objectKey, sha256, case.version)

/-- The second transaction of `read_content`, after the file has been read. -/
def readContent (actor : Actor) (caseId : CaseId) (version : ℕ) : Answer Unit := do
  let (case, _, _, _) ← db.scope actor caseId false
  assigned case actor
  ensure (case.version = version) (.conflict "核实条目已变更，请刷新")

def Listed (actor : Actor) (case : AchievementReviewCase) : Prop :=
  case.status = .submitted ∧ (db.revisions.get case.revisionId).isSome = true ∧
    (db.scopeOf case.achievementId).any fun scope =>
      decide (scope.2.ownerUserId ≠ actor.userId) && db.activeStudent scope.2.ownerUserId &&
      ((case.assignedUserId.isNone || case.assignedUserId == some actor.userId ||
        !(case.assignedUserId.any fun u => db.validAssignee scope.1 u)) &&
      (db.conflicts.get (scope.1, actor.userId)).isNone)

instance (actor : Actor) (case : AchievementReviewCase) : Decidable (db.Listed actor case) :=
  inferInstanceAs (Decidable (_ ∧ _ ∧ _))

structure ReviewQueueItem where
  id : CaseId
  revisionId : RevisionId
  operation : ReviewOperation
  version : ℕ
  projectTitle : Text
  achievementTitle : Text
  submittedAt : Instant
  claimedByMe : Bool
  deriving DecidableEq

def queueItem (actor : Actor) (row : CaseId × AchievementReviewCase) : Option ReviewQueueItem :=
  (db.revisions.get row.2.revisionId).map fun revision =>
    { id := row.1
      revisionId := row.2.revisionId
      operation := revision.operation
      version := row.2.version
      projectTitle := revision.projectContent.title
      achievementTitle := revision.achievementContent.title
      submittedAt := row.2.submittedAt
      claimedByMe := row.2.assignedUserId = some actor.userId }

def queue (actor : Actor) : List ReviewQueueItem :=
  (db.cases.scan (fun _ case => db.Listed actor case) fun case => case.submittedAt).filterMap
    (db.queueItem actor)

def listQueue (actor : Actor) (limit offset : ℕ) : Answer (List ReviewQueueItem × ℕ) := do
  db.authority actor none
  .ok (((db.queue actor).drop offset).take limit, (db.queue actor).length)

end Operator

section Specs

variable {db db' : ReviewDb} {actor : Actor} {digests : Fingerprints} {now : Instant}
  {projectId : ProjectId} {achievementId : AchievementId} {caseId : CaseId}

theorem owned_ok {scope : ProjectDraft × AchievementDraft × AchievementWorkflow}
    (h : db.owned actor projectId achievementId = .ok scope) :
    (db.projects.get projectId = some scope.1 ∧ scope.1.ownerUserId = actor.userId) ∧
      (db.achievements.get achievementId = some scope.2.1 ∧ scope.2.1.projectId = projectId) ∧
      scope.2.2 = (db.workflows.get achievementId).getD newWorkflow := by
  obtain ⟨_, _, h⟩ := bind_ok.mp h
  obtain ⟨project, hproject, h⟩ := orRefuse_bind_ok.mp h
  obtain ⟨achievement, hachievement, h⟩ := orRefuse_bind_ok.mp h
  cases h
  have hproject := Option.filter_eq_some_iff.mp hproject
  have hachievement := Option.filter_eq_some_iff.mp hachievement
  exact ⟨⟨hproject.1, of_decide_eq_true hproject.2⟩,
    ⟨hachievement.1, of_decide_eq_true hachievement.2⟩, rfl⟩

structure Freezes (db : ReviewDb) (digests : Fingerprints) (now : Instant) (actor : Actor)
    (projectId : ProjectId) (achievementId : AchievementId) (payload : SavedRevisionCommand)
    (operation : ReviewOperation) (revision : AchievementRevision)
    (workflow : AchievementWorkflow) : Prop where
  owner : ∃ p, db.projects.get projectId = some p ∧ p.ownerUserId = actor.userId
  child : ∃ a, db.achievements.get achievementId = some a ∧ a.projectId = projectId
  qualified : (db.qualifications.get actor.userId).any (fun q => q.approved) = true
  before : workflow = (db.workflows.get achievementId).getD newWorkflow
  first : operation = .submit →
    workflow.firstReviewState = .draft ∨ workflow.firstReviewState = .returned
  again : operation = .update → workflow.firstReviewState = .approved
  none_pending : db.pendingCase achievementId = none
  unused : db.createdBy achievementId payload.requestId = none
  achievement_eq : revision.achievementId = achievementId
  number_eq : revision.number = db.maxNumber achievementId + 1
  operation_eq : revision.operation = operation
  request_eq : revision.creationRequestId = payload.requestId
  fingerprint_eq : revision.creationPayloadFingerprint = digests.saved operation payload
  evidence_eq : revision.evidence = db.materials achievementId payload.evidenceIds

/-- A submission answers a request that has created a revision before, or freezes a new one. -/
theorem savedRevision_ok {payload : SavedRevisionCommand} {operation : ReviewOperation}
    {revisionId : RevisionId}
    (h : db.savedRevision digests now actor projectId achievementId payload operation revisionId
      caseId = .ok db') :
    (∃ id existing, db.createdBy achievementId payload.requestId = some (id, existing) ∧
      existing.creationPayloadFingerprint = digests.saved operation payload ∧
      db' = db.putWorkflow achievementId) ∨
    ∃ revision workflow,
      db.Freezes digests now actor projectId achievementId payload operation revision workflow ∧
      db' = db.putSubmission now achievementId revisionId caseId revision workflow := by
  obtain ⟨⟨project, achievement, workflow⟩, howned, h⟩ := bind_ok.mp h
  obtain ⟨hproject, hachievement, hworkflow⟩ := owned_ok howned
  cases hcreated : db.createdBy achievementId payload.requestId with
  | some found =>
    obtain ⟨id, existing⟩ := found
    simp only [hcreated] at h
    obtain ⟨hsame, h⟩ := ensure_bind_ok.mp h
    exact .inl ⟨id, existing, rfl, hsame, (Except.ok.inj h).symm⟩
  | none =>
    simp only [hcreated] at h
    obtain ⟨hqualified, h⟩ := ensure_bind_ok.mp h
    obtain ⟨profile, _, h⟩ := orRefuse_bind_ok.mp h
    obtain ⟨_, h⟩ := ensure_bind_ok.mp h
    obtain ⟨_, h⟩ := ensure_bind_ok.mp h
    obtain ⟨_, h⟩ := ensure_bind_ok.mp h
    obtain ⟨hfirst, h⟩ := ensure_bind_ok.mp h
    obtain ⟨hagain, h⟩ := ensure_bind_ok.mp h
    obtain ⟨hpending, h⟩ := ensure_bind_ok.mp h
    obtain ⟨_, h⟩ := ensure_bind_ok.mp h
    refine .inr ⟨_, workflow, ?_, (Except.ok.inj h).symm⟩
    exact
      { owner := ⟨project, hproject⟩
        child := ⟨achievement, hachievement⟩
        qualified := hqualified
        before := hworkflow
        first := hfirst
        again := hagain
        none_pending := hpending
        unused := hcreated
        achievement_eq := rfl
        number_eq := rfl
        operation_eq := rfl
        request_eq := rfl
        fingerprint_eq := rfl
        evidence_eq := rfl }

theorem withdraw_ok {payload : WithdrawCommand}
    (h : db.withdraw actor projectId achievementId payload = .ok db') :
    ∃ case workflow, db.cases.get payload.caseId = some case ∧
      case.achievementId = achievementId ∧ case.status = .submitted ∧
      workflow = (db.workflows.get achievementId).getD newWorkflow ∧
      (workflow.firstReviewState = .submitted ∨ workflow.firstReviewState = .approved) ∧
      db' = db.putWithdrawal achievementId payload.caseId case workflow := by
  obtain ⟨⟨project, achievement, workflow⟩, howned, h⟩ := bind_ok.mp h
  obtain ⟨case, hcase, h⟩ := orRefuse_bind_ok.mp h
  obtain ⟨⟨hstate, _, hstatus, _⟩, h⟩ := ensure_bind_ok.mp h
  have hcase := Option.filter_eq_some_iff.mp hcase
  exact ⟨case, workflow, hcase.1, of_decide_eq_true hcase.2, hstatus, (owned_ok howned).2.2,
    hstate, (Except.ok.inj h).symm⟩

structure Operates (db : ReviewDb) (actor : Actor) : Prop where
  student : actor.role = .student
  active : db.activeStudent actor.userId = true
  granted : (db.grants.get actor.userId).any OperationsGrant.enabled = true

theorem authority_none_iff {u : Unit} :
    db.authority actor none = .ok u ↔ db.Operates actor := by
  unfold authority
  rw [ensure_bind_ok, ensure_bind_ok]
  constructor
  · rintro ⟨⟨hrole, hactive⟩, hgrant, _⟩
    exact ⟨hrole, hactive, hgrant⟩
  · rintro ⟨hrole, hactive, hgrant⟩
    exact ⟨⟨hrole, hactive⟩, hgrant, rfl⟩

theorem authority_some_iff {u : Unit} {owner : UserId} :
    db.authority actor (some owner) = .ok u ↔ db.Operates actor ∧ owner ≠ actor.userId ∧
      db.activeStudent owner = true ∧
      (db.qualifications.get owner).any (fun q => q.approved) = true := by
  unfold authority
  rw [ensure_bind_ok, ensure_bind_ok]
  dsimp only
  rw [ensure_bind_ok, ensure_bind_ok, ensure_ok]
  constructor
  · rintro ⟨⟨hrole, hactive⟩, hgrant, howner⟩
    exact ⟨⟨hrole, hactive, hgrant⟩, howner⟩
  · rintro ⟨⟨hrole, hactive, hgrant⟩, howner⟩
    exact ⟨⟨hrole, hactive⟩, hgrant, howner⟩

structure Scoped (db : ReviewDb) (actor : Actor) (caseId : CaseId) (allowConflict : Bool)
    (case : AchievementReviewCase) (workflow : AchievementWorkflow) (projectId : ProjectId)
    (owner : UserId) : Prop where
  found : db.caseScope caseId = some (case, projectId, owner)
  operates : db.Operates actor
  not_owner : owner ≠ actor.userId
  owner_active : db.activeStudent owner = true
  owner_qualified : (db.qualifications.get owner).any (fun q => q.approved) = true
  reviewed : db.workflows.get case.achievementId = some workflow
  no_conflict : db.conflicts.get (projectId, actor.userId) = none ∨ allowConflict = true

theorem scope_ok {allowConflict : Bool} {case : AchievementReviewCase}
    {workflow : AchievementWorkflow} {owner : UserId} :
    db.scope actor caseId allowConflict = .ok (case, workflow, projectId, owner) ↔
      db.Scoped actor caseId allowConflict case workflow projectId owner := by
  unfold scope
  cases hfound : db.caseScope caseId with
  | none =>
    constructor
    · intro h
      obtain ⟨_, _, h⟩ := bind_ok.mp h
      cases h
    · intro h
      have hsome := h.found
      rw [hfound] at hsome
      cases hsome
  | some found =>
    obtain ⟨case', projectId', owner'⟩ := found
    constructor
    · intro h
      obtain ⟨_, hauthority, h⟩ := bind_ok.mp h
      obtain ⟨workflow', hworkflow, h⟩ := orRefuse_bind_ok.mp h
      obtain ⟨hconflict, h⟩ := ensure_bind_ok.mp h
      cases h
      obtain ⟨hoperates, hne, hactive, hqualified⟩ := authority_some_iff.mp hauthority
      exact ⟨hfound, hoperates, hne, hactive, hqualified, hworkflow, hconflict⟩
    · intro h
      obtain ⟨rfl, rfl, rfl⟩ : case' = case ∧ projectId' = projectId ∧ owner' = owner := by
        have hsome := h.found
        rw [hfound] at hsome
        cases hsome
        exact ⟨rfl, rfl, rfl⟩
      refine bind_ok.mpr ⟨(), authority_some_iff.mpr ?_, ?_⟩
      · exact ⟨h.operates, h.not_owner, h.owner_active, h.owner_qualified⟩
      · refine orRefuse_bind_ok.mpr ⟨workflow, h.reviewed, ?_⟩
        exact ensure_bind_ok.mpr ⟨h.no_conflict, rfl⟩

theorem caseScope_eq {case : AchievementReviewCase} {owner : UserId} :
    db.caseScope caseId = some (case, projectId, owner) ↔
      db.cases.get caseId = some case ∧
        ∃ p, db.scopeOf case.achievementId = some (projectId, p) ∧ p.ownerUserId = owner := by
  unfold caseScope
  rw [Option.bind_eq_some_iff]
  constructor
  · rintro ⟨case', hget, h⟩
    obtain ⟨⟨projectId', p⟩, hscope, heq⟩ := Option.map_eq_some_iff.mp h
    cases heq
    exact ⟨hget, p, hscope, rfl⟩
  · rintro ⟨hget, p, hscope, rfl⟩
    refine ⟨case, hget, ?_⟩
    rw [hscope]
    rfl

theorem Scoped.get {allowConflict : Bool} {case : AchievementReviewCase}
    {workflow : AchievementWorkflow} {owner : UserId}
    (h : db.Scoped actor caseId allowConflict case workflow projectId owner) :
    db.cases.get caseId = some case :=
  (caseScope_eq.mp h.found).1

/-- A claim finds the case in the hands of the operator, or takes it from nobody or from
somebody who may not decide it any more. -/
theorem claim_ok {version : ℕ} :
    db.claim actor caseId version = .ok db' ↔
      ∃ case workflow projectId owner,
        db.Scoped actor caseId false case workflow projectId owner ∧ case.status = .submitted ∧
        if case.assignedUserId = some actor.userId ∧
            (version = case.version ∨ version + 1 = case.version) then db' = db
        else case.version = version ∧
          (case.assignedUserId.any fun u => db.validAssignee projectId u) = false ∧
          db' = db.putClaim caseId case actor.userId := by
  unfold claim
  rw [bind_ok]
  constructor
  · rintro ⟨⟨case, workflow, projectId, owner⟩, hscope, h⟩
    obtain ⟨hstatus, h⟩ := ensure_bind_ok.mp h
    refine ⟨case, workflow, projectId, owner, scope_ok.mp hscope, hstatus, ?_⟩
    split at h
    next hmine =>
      rw [if_pos hmine]
      exact (Except.ok.inj h).symm
    next hmine =>
      obtain ⟨hversion, h⟩ := ensure_bind_ok.mp h
      obtain ⟨hfree, h⟩ := ensure_bind_ok.mp h
      rw [if_neg hmine]
      exact ⟨hversion, hfree, (Except.ok.inj h).symm⟩
  · rintro ⟨case, workflow, projectId, owner, hscope, hstatus, h⟩
    refine ⟨(case, workflow, projectId, owner), scope_ok.mpr hscope, ?_⟩
    refine ensure_bind_ok.mpr ⟨hstatus, ?_⟩
    split at h
    next hmine =>
      rw [if_pos hmine, h]
    next hmine =>
      obtain ⟨hversion, hfree, rfl⟩ := h
      rw [if_neg hmine]
      exact ensure_bind_ok.mpr ⟨hversion, ensure_bind_ok.mpr ⟨hfree, rfl⟩⟩

theorem declareConflict_ok {version : ℕ}
    (h : db.declareConflict now actor caseId version = .ok db') :
    ∃ case workflow projectId owner,
      db.Scoped actor caseId true case workflow projectId owner ∧ case.status = .submitted ∧
      db' = db.putConflict now projectId actor.userId := by
  obtain ⟨⟨case, workflow, projectId, owner⟩, hscope, h⟩ := bind_ok.mp h
  obtain ⟨⟨hstatus, _⟩, h⟩ := ensure_bind_ok.mp h
  exact ⟨case, workflow, projectId, owner, scope_ok.mp hscope, hstatus, (Except.ok.inj h).symm⟩

/-- A decision answers the request that decided the case, or decides it. -/
theorem decision_ok {payload : ReviewDecisionCommand}
    (h : db.decision digests now actor caseId payload = .ok db') :
    ∃ case workflow projectId owner,
      db.Scoped actor caseId false case workflow projectId owner ∧
      case.assignedUserId = some actor.userId ∧
      if case.decisionRequestId = some payload.requestId then
        case.decisionPayloadFingerprint = some (digests.decision payload) ∧ db' = db
      else ∃ revision, db.revisions.get case.revisionId = some revision ∧
        case.status = .submitted ∧
        workflow.firstReviewState = expectedState revision.operation ∧
        case.version = payload.version ∧ case.revisionId = payload.revisionId ∧
        db' = db.putDecision digests now caseId case revision.operation workflow payload := by
  obtain ⟨⟨case, workflow, projectId, owner⟩, hscope, h⟩ := bind_ok.mp h
  obtain ⟨hmine, h⟩ := ensure_bind_ok.mp h
  refine ⟨case, workflow, projectId, owner, scope_ok.mp hscope, hmine, ?_⟩
  split at h
  next hreplay =>
    obtain ⟨hsame, h⟩ := ensure_bind_ok.mp h
    rw [if_pos hreplay]
    exact ⟨hsame, (Except.ok.inj h).symm⟩
  next hreplay =>
    obtain ⟨revision, hrevision, h⟩ := orRefuse_bind_ok.mp h
    obtain ⟨⟨hstatus, hstate, hversion, hrev⟩, h⟩ := ensure_bind_ok.mp h
    rw [if_neg hreplay]
    exact ⟨revision, hrevision, hstatus, hstate, hversion, hrev, (Except.ok.inj h).symm⟩

end Specs

end ReviewDb

end CampusQuest.Innovation
