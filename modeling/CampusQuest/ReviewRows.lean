import CampusQuest.BulkStatements
import CampusQuest.Guards
import CampusQuest.LifecycleRows

/-!
Rows of the review of achievements. An owner submits the saved versions of a project and of an
achievement with the materials that prove it; an operator decides. The workflow of an
achievement, the case under review and the revision that it froze are three rows, and a
material carries its digest only while it is ready.
-/

namespace CampusQuest.Innovation

open Guards Tables
open Lifecycle (Account UserStatus)

abbrev ProjectId := ℕ
abbrev AchievementId := ℕ
abbrev RevisionId := ℕ
abbrev CaseId := ℕ
abbrev EvidenceId := ℕ
abbrev RequestId := ℕ
abbrev CheckToken := ℕ

inductive InnovationError
  | authenticationRequired
  | permissionDenied (message : String)
  | accountNotActive
  | totpSetupRequired
  | notFound (message : String)
  | conflict (message : String)
  | runtime (message : String)
  deriving DecidableEq, Repr

namespace InnovationError

def statusCode : InnovationError → ℕ
  | authenticationRequired => 401
  | permissionDenied _ | accountNotActive | totpSetupRequired => 403
  | notFound _ => 404
  | conflict _ => 409
  | runtime _ => 500

end InnovationError

abbrev Answer (α : Type) := Except InnovationError α

structure ProjectContent where
  title : Text
  summary : Text
  direction : Text
  stage : Text
  teamStatus : Text
  deriving DecidableEq

structure AchievementContent where
  title : Text
  description : Text
  workUrl : Text
  awardText : Text
  deriving DecidableEq

structure ProfileContent where
  name : Text
  studentNo : Text
  major : Text
  grade : Text
  deriving DecidableEq

/-- Every field has something left when it is stripped. -/
def ProjectContent.Filled (c : ProjectContent) : Prop :=
  ∀ t ∈ [c.title, c.summary, c.direction, c.stage, c.teamStatus], strip t ≠ []

def ProfileContent.Filled (c : ProfileContent) : Prop :=
  ∀ t ∈ [c.name, c.studentNo, c.major, c.grade], strip t ≠ []

instance (c : ProjectContent) : Decidable c.Filled := inferInstanceAs (Decidable (∀ t ∈ _, _))

instance (c : ProfileContent) : Decidable c.Filled := inferInstanceAs (Decidable (∀ t ∈ _, _))

structure ProjectDraft where
  ownerUserId : UserId
  content : ProjectContent
  version : ℕ
  deriving DecidableEq

structure AchievementDraft where
  projectId : ProjectId
  content : AchievementContent
  version : ℕ
  deriving DecidableEq

structure OwnerProfile where
  content : ProfileContent
  version : ℕ
  deriving DecidableEq

structure OwnerQualification where
  approved : Bool
  version : ℕ
  profileVersion : ℕ
  profile : ProfileContent
  requestedAt : Instant
  deriving DecidableEq

structure OperationsGrant where
  enabled : Bool
  version : ℕ
  deriving DecidableEq

inductive ReviewOperation
  | submit
  | update
  deriving DecidableEq, Repr

inductive ReviewState
  | draft
  | submitted
  | returned
  | approved
  deriving DecidableEq, Repr

inductive CaseStatus
  | submitted
  | withdrawn
  | approved
  | returned
  deriving DecidableEq, Repr

/-- A frozen version, with the materials it refers to and their digests. -/
structure AchievementRevision where
  achievementId : AchievementId
  number : ℕ
  creationRequestId : RequestId
  creationPayloadFingerprint : Text
  operation : ReviewOperation
  projectVersion : ℕ
  achievementVersion : ℕ
  projectContent : ProjectContent
  achievementContent : AchievementContent
  ownerProfile : ProfileContent
  createdAt : Instant
  evidence : List (EvidenceId × Text)
  deriving DecidableEq

structure AchievementReviewCase where
  achievementId : AchievementId
  revisionId : RevisionId
  status : CaseStatus
  version : ℕ
  assignedUserId : Option UserId
  reason : Option Text
  submittedAt : Instant
  decidedAt : Option Instant
  decisionRequestId : Option RequestId
  decisionPayloadFingerprint : Option Text
  deriving DecidableEq

structure AchievementWorkflow where
  firstReviewState : ReviewState
  version : ℕ
  publicRevisionId : Option RevisionId
  firstApprovedAt : Option Instant
  latestUpdateAt : Option Instant
  deriving DecidableEq

def newWorkflow : AchievementWorkflow := ⟨.draft, 1, none, none, none⟩

inductive EvidenceState
  | pending
  | checking (token : CheckToken) (checkingUntil : Instant)
  | ready (sha256 : Text)
  | rejected
  deriving DecidableEq, Repr

structure AchievementEvidence where
  achievementId : AchievementId
  creationRequestId : RequestId
  creationPayloadFingerprint : Text
  objectKey : Text
  contentType : Text
  size : ℕ
  state : EvidenceState
  failureCode : Option String
  expiresAt : Instant
  removedAt : Option Instant
  referenced : Bool
  version : ℕ
  createdAt : Instant
  updatedAt : Instant
  deriving DecidableEq

structure ReviewDb where
  users : Table UserId Account
  totp : Table UserId Instant
  grants : Table UserId OperationsGrant
  qualifications : Table UserId OwnerQualification
  profiles : Table UserId OwnerProfile
  projects : Table ProjectId ProjectDraft
  achievements : Table AchievementId AchievementDraft
  workflows : Table AchievementId AchievementWorkflow
  revisions : Table RevisionId AchievementRevision
  cases : Table CaseId AchievementReviewCase
  conflicts : Table (ProjectId × UserId) Instant
  evidence : Table EvidenceId AchievementEvidence

namespace ReviewDb

variable (db : ReviewDb)

def requireStudent (actor : Actor) : Answer Unit := do
  let account ← orRefuse .authenticationRequired (db.users.get actor.userId)
  ensure (actor.role = .student ∧ account.role = .student)
    (.permissionDenied "仅学生可管理本人负责人资料")
  ensure (account.status = .active) .accountNotActive

def activeStudent (user : UserId) : Bool :=
  (db.users.get user).any fun account => account.role = .student ∧ account.status = .active

def scopeOf (achievement : AchievementId) : Option (ProjectId × ProjectDraft) :=
  (db.achievements.get achievement).bind fun a => (db.projects.get a.projectId).map (a.projectId, ·)

def pendingCase (achievement : AchievementId) : Option (CaseId × AchievementReviewCase) :=
  db.cases.find fun _ c => c.achievementId = achievement ∧ c.status = .submitted

def requireEditable (achievement : AchievementId) : Answer Unit :=
  ensure ((db.workflows.get achievement).map AchievementWorkflow.firstReviewState ≠ some .submitted ∧
    db.pendingCase achievement = none) (.conflict "成果正在核实，请先撤回再修改")

def maxNumber (achievement : AchievementId) : ℕ :=
  db.revisions.keys.sup fun id => (db.revisions.get id).elim 0 fun r =>
    if r.achievementId = achievement then r.number else 0

variable {db} {achievement : AchievementId}

theorem number_le_maxNumber {id : RevisionId} {r : AchievementRevision}
    (h : db.revisions.get id = some r) : r.number ≤ db.maxNumber r.achievementId := by
  have hmem : id ∈ db.revisions.keys := by
    rw [Table.mem_keys_iff, h]
    rfl
  have hle := Finset.le_sup (f := fun id => (db.revisions.get id).elim 0 fun r' =>
    if r'.achievementId = r.achievementId then r'.number else 0) hmem
  simp only [h, Option.elim_some, if_true] at hle
  exact hle

theorem requireEditable_ok {u : Unit} (h : db.requireEditable achievement = .ok u) :
    db.pendingCase achievement = none :=
  (ensure_ok.mp h).2

theorem pendingCase_none (h : db.pendingCase achievement = none) {id : CaseId}
    {c : AchievementReviewCase} (hget : db.cases.get id = some c)
    (hachievement : c.achievementId = achievement) : c.status ≠ .submitted :=
  fun hstatus => Table.find_none h hget ⟨hachievement, hstatus⟩

theorem scopeOf_eq {project : ProjectId} {p : ProjectDraft} :
    db.scopeOf achievement = some (project, p) ↔
      ∃ a, db.achievements.get achievement = some a ∧ a.projectId = project ∧
        db.projects.get project = some p := by
  unfold scopeOf
  rw [Option.bind_eq_some_iff]
  refine exists_congr fun a => and_congr_right fun _ => ?_
  rw [Option.map_eq_some_iff]
  constructor
  · rintro ⟨p', hget, heq⟩
    obtain ⟨rfl, rfl⟩ := Prod.mk.inj heq
    exact ⟨rfl, hget⟩
  · rintro ⟨rfl, hget⟩
    exact ⟨p, hget, rfl⟩

end ReviewDb

end CampusQuest.Innovation
