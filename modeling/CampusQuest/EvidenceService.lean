import CampusQuest.ReviewService

/-!
The materials that prove an achievement, and the qualification of its owner. A check runs
between two transactions: the first hands out a token, and the second applies the result only
while the row still carries that token. A material that a revision refers to is not removed.
-/

namespace CampusQuest.Innovation

open Guards Tables
open Lifecycle (Account UserStatus)

structure EvidenceIntentCreate where
  requestId : RequestId
  contentType : Text
  size : ℕ
  deriving DecidableEq

inductive CheckOutcome
  | passed (sha256 : Text)
  | missing
  | threat
  | invalid
  | unavailable
  deriving DecidableEq, Repr

namespace CheckOutcome

def state : CheckOutcome → EvidenceState
  | passed sha256 => .ready sha256
  | missing | unavailable => .pending
  | threat | invalid => .rejected

def failureCode : CheckOutcome → Option String
  | passed _ => none
  | missing => some "MISSING_OBJECT"
  | threat => some "UNSAFE_CONTENT"
  | invalid => some "INVALID_CONTENT"
  | unavailable => some "CHECK_UNAVAILABLE"

/-- A missing file is reported after its row is committed. -/
def report : CheckOutcome → Answer Unit
  | missing => .error (.conflict "尚未收到上传文件，请完成上传后重试")
  | _ => .ok ()

end CheckOutcome

namespace EvidenceState

def settled : EvidenceState → Bool
  | ready _ | rejected => true
  | pending | checking _ _ => false

def busy (now : Instant) : EvidenceState → Bool
  | checking _ checkingUntil => now < checkingUntil
  | pending | ready _ | rejected => false

def checkToken : EvidenceState → Option CheckToken
  | checking token _ => some token
  | pending | ready _ | rejected => none

end EvidenceState

def AchievementEvidence.Counts (achievementId : AchievementId) (now : Instant)
    (row : AchievementEvidence) : Prop :=
  row.achievementId = achievementId ∧ row.removedAt = none ∧ row.referenced = false ∧
    (row.state ≠ .pending ∨ now < row.expiresAt)

instance (achievementId : AchievementId) (now : Instant) (row : AchievementEvidence) :
    Decidable (row.Counts achievementId now) :=
  inferInstanceAs (Decidable (_ ∧ _ ∧ _ ∧ _))

def uploadExpiry : Instant := 15 * 60

def checkLease : Instant := 150

namespace ReviewDb

section Materials

variable (db : ReviewDb)

def ownedMaterials (actor : Actor) (projectId : ProjectId) (achievementId : AchievementId) :
    Answer Unit := do
  db.requireStudent actor
  let _ ← orRefuse (.notFound "项目或成果不存在")
    ((db.projects.get projectId).filter fun p => p.ownerUserId = actor.userId)
  let _ ← orRefuse (.notFound "项目或成果不存在")
    ((db.achievements.get achievementId).filter fun a => a.projectId = projectId)
  ensure ((db.qualifications.get actor.userId).any fun q => q.approved)
    (.permissionDenied "请先开通项目负责人资格")

def material (achievementId : AchievementId) (evidenceId : EvidenceId) :
    Answer AchievementEvidence :=
  orRefuse (.notFound "证明材料不存在")
    ((db.evidence.get evidenceId).filter fun row =>
      row.achievementId = achievementId ∧ row.removedAt = none)

def kept (achievementId : AchievementId) (now : Instant) : ℕ :=
  db.evidence.count fun _ row => row.Counts achievementId now

def putMaterial (evidenceId : EvidenceId) (row : AchievementEvidence) : ReviewDb :=
  { db with evidence := db.evidence.put evidenceId row }

/-- The upload of a request, under the key that the storage has signed. -/
def newMaterial (digests : Fingerprints) (now : Instant) (achievementId : AchievementId)
    (payload : EvidenceIntentCreate) (objectKey : Text) : AchievementEvidence :=
  { achievementId := achievementId
    creationRequestId := payload.requestId
    creationPayloadFingerprint := digests.intent payload.contentType payload.size
    objectKey := objectKey
    contentType := payload.contentType
    size := payload.size
    state := .pending
    failureCode := none
    expiresAt := now + uploadExpiry
    removedAt := none
    referenced := false
    version := 1
    createdAt := now
    updatedAt := now }

def createIntent (digests : Fingerprints) (now : Instant) (actor : Actor)
    (projectId : ProjectId) (achievementId : AchievementId) (payload : EvidenceIntentCreate)
    (evidenceId : EvidenceId) (objectKey : Text) : Answer ReviewDb := do
  db.ownedMaterials actor projectId achievementId
  db.requireEditable achievementId
  match db.evidence.find fun _ row =>
      row.achievementId = achievementId ∧ row.creationRequestId = payload.requestId with
  | some (_, row) => do
    ensure (row.creationPayloadFingerprint = digests.intent payload.contentType payload.size)
      (.conflict "这次上传请求已用于其他文件信息")
    ensure (row.removedAt = none) (.conflict "这次上传已移除，请新建上传请求")
    .ok db
  | none => do
    ensure (db.kept achievementId now < 5)
      (.conflict "每项成果最多保留五份未引用的上传材料，请先移除多余材料")
    .ok (db.putMaterial evidenceId (newMaterial digests now achievementId payload objectKey))

/-- The first transaction of `complete`. A material that is settled is shown as it is. -/
def startCheck (now : Instant) (actor : Actor) (projectId : ProjectId)
    (achievementId : AchievementId) (evidenceId : EvidenceId) (token : CheckToken) :
    Answer ReviewDb := do
  db.ownedMaterials actor projectId achievementId
  let row ← db.material achievementId evidenceId
  if row.state.settled then .ok db
  else do
    db.requireEditable achievementId
    ensure (now < row.expiresAt) (.conflict "上传意向已过期，请移除后重新上传")
    ensure (row.state.busy now = false) (.conflict "材料正在检查，请稍后刷新")
    .ok (db.putMaterial evidenceId
      { row with
        state := .checking token (now + checkLease)
        failureCode := none
        version := row.version + 1
        updatedAt := now })

/-- The second transaction of `complete`, when the check has ended or has run out of time. -/
def finishCheck (now : Instant) (actor : Actor) (projectId : ProjectId)
    (achievementId : AchievementId) (evidenceId : EvidenceId) (token : CheckToken)
    (outcome : CheckOutcome) : Answer (ReviewDb × Answer Unit) := do
  db.ownedMaterials actor projectId achievementId
  let row ← db.material achievementId evidenceId
  ensure (row.state.checkToken = some token) (.conflict "检查请求已被更新，请刷新材料状态")
  db.requireEditable achievementId
  .ok (db.putMaterial evidenceId
    { row with
      state := outcome.state
      failureCode := outcome.failureCode
      version := row.version + 1
      updatedAt := now }, outcome.report)

def remove (now : Instant) (actor : Actor) (projectId : ProjectId)
    (achievementId : AchievementId) (evidenceId : EvidenceId) : Answer ReviewDb := do
  db.ownedMaterials actor projectId achievementId
  db.requireEditable achievementId
  let row ← db.material achievementId evidenceId
  ensure (row.referenced = false) (.conflict "材料已用于审核记录，不能移除")
  .ok (db.putMaterial evidenceId
    { row with removedAt := some now, version := row.version + 1, updatedAt := now })

end Materials

section Qualification

variable (db : ReviewDb)

def requireAdmin (actor : Actor) (user : UserId) : Answer Unit := do
  let admin ← orRefuse (.permissionDenied "仅管理员可处理负责人资格申请")
    ((db.users.get actor.userId).filter fun a => actor.role = .admin ∧ a.role = .admin)
  ensure (admin.status = .active) .accountNotActive
  ensure ((db.totp.get actor.userId).isSome = true) .totpSetupRequired
  let _ ← orRefuse (.notFound "申请不存在") (db.users.get user)
  ensure (db.activeStudent user = true) (.permissionDenied "仅可处理正常学生的负责人资格申请")

def applyQualification (now : Instant) (actor : Actor) (version profileVersion : ℕ) :
    Answer ReviewDb := do
  db.requireStudent actor
  let profile ← orRefuse (.conflict "请先保存并读取最新的四项资料，再申请负责人资格")
    ((db.profiles.get actor.userId).filter fun p => p.version = profileVersion)
  let row := db.qualifications.get actor.userId
  ensure (version = row.elim 0 OwnerQualification.version ∧
      row.any (fun q => q.approved || q.profileVersion == profile.version) = false)
    (.conflict "资格或申请已改变，请重新读取后再决定")
  .ok { db with
    qualifications := db.qualifications.put actor.userId
      { approved := false
        version := row.elim 1 fun q => q.version + 1
        profileVersion := profile.version
        profile := profile.content
        requestedAt := now } }

def approveQualification (actor : Actor) (user : UserId) (version : ℕ) : Answer ReviewDb := do
  db.requireAdmin actor user
  let row ← orRefuse (.notFound "申请不存在") (db.qualifications.get user)
  ensure (row.approved = false ∧ row.version = version)
    (.conflict "申请状态已改变，请重新查看申请后再决定")
  .ok { db with
    qualifications := db.qualifications.put user
      { row with approved := true, version := row.version + 1 } }

end Qualification

section Specs

variable {db db' : ReviewDb} {actor : Actor} {digests : Fingerprints} {now : Instant}
  {projectId : ProjectId} {achievementId : AchievementId} {evidenceId : EvidenceId}

theorem material_ok {row : AchievementEvidence}
    (h : db.material achievementId evidenceId = .ok row) :
    db.evidence.get evidenceId = some row ∧ row.achievementId = achievementId ∧
      row.removedAt = none := by
  have hrow := Option.filter_eq_some_iff.mp (orRefuse_ok.mp h)
  exact ⟨hrow.1, of_decide_eq_true hrow.2⟩

/-- An upload request answers again, or adds a material where fewer than five count. -/
theorem createIntent_ok {payload : EvidenceIntentCreate} {objectKey : Text}
    (h : db.createIntent digests now actor projectId achievementId payload evidenceId objectKey =
      .ok db') :
    db.pendingCase achievementId = none ∧ (db' = db ∨ db.kept achievementId now < 5 ∧
      db' = db.putMaterial evidenceId
        (newMaterial digests now achievementId payload objectKey)) := by
  obtain ⟨_, _, h⟩ := bind_ok.mp h
  obtain ⟨_, heditable, h⟩ := bind_ok.mp h
  refine ⟨requireEditable_ok heditable, ?_⟩
  split at h
  next =>
    obtain ⟨_, h⟩ := ensure_bind_ok.mp h
    obtain ⟨_, h⟩ := ensure_bind_ok.mp h
    exact .inl (Except.ok.inj h).symm
  next =>
    obtain ⟨hkept, h⟩ := ensure_bind_ok.mp h
    exact .inr ⟨hkept, (Except.ok.inj h).symm⟩

/-- A check starts on a material that is not settled, has not expired and is not being
checked. -/
theorem startCheck_ok {token : CheckToken}
    (h : db.startCheck now actor projectId achievementId evidenceId token = .ok db') :
    db' = db ∨ ∃ row, db.evidence.get evidenceId = some row ∧
      row.achievementId = achievementId ∧ row.removedAt = none ∧ row.state.settled = false ∧
      db.pendingCase achievementId = none ∧ now < row.expiresAt ∧
      db' = db.putMaterial evidenceId
        { row with
          state := .checking token (now + checkLease)
          failureCode := none
          version := row.version + 1
          updatedAt := now } := by
  obtain ⟨_, _, h⟩ := bind_ok.mp h
  obtain ⟨row, hrow, h⟩ := bind_ok.mp h
  obtain ⟨hget, hachievement, hremoved⟩ := material_ok hrow
  split at h
  next => exact .inl (Except.ok.inj h).symm
  next hsettled =>
    obtain ⟨_, heditable, h⟩ := bind_ok.mp h
    obtain ⟨hexpires, h⟩ := ensure_bind_ok.mp h
    obtain ⟨_, h⟩ := ensure_bind_ok.mp h
    exact .inr ⟨row, hget, hachievement, hremoved, eq_false_of_ne_true hsettled,
      requireEditable_ok heditable, hexpires, (Except.ok.inj h).symm⟩

/-- A result is applied to a material that still carries the token of its check. -/
theorem finishCheck_ok {token : CheckToken} {outcome : CheckOutcome}
    {answer : ReviewDb × Answer Unit}
    (h : db.finishCheck now actor projectId achievementId evidenceId token outcome = .ok answer) :
    ∃ row, db.evidence.get evidenceId = some row ∧
      row.achievementId = achievementId ∧ row.removedAt = none ∧
      row.state.checkToken = some token ∧ db.pendingCase achievementId = none ∧
      answer.1 = db.putMaterial evidenceId
        { row with
          state := outcome.state
          failureCode := outcome.failureCode
          version := row.version + 1
          updatedAt := now } := by
  obtain ⟨_, _, h⟩ := bind_ok.mp h
  obtain ⟨row, hrow, h⟩ := bind_ok.mp h
  obtain ⟨hget, hachievement, hremoved⟩ := material_ok hrow
  obtain ⟨hcurrent, h⟩ := ensure_bind_ok.mp h
  obtain ⟨_, heditable, h⟩ := bind_ok.mp h
  exact ⟨row, hget, hachievement, hremoved, hcurrent, requireEditable_ok heditable,
    (congrArg Prod.fst (Except.ok.inj h)).symm⟩

theorem remove_ok
    (h : db.remove now actor projectId achievementId evidenceId = .ok db') :
    ∃ row, db.evidence.get evidenceId = some row ∧ row.achievementId = achievementId ∧
      row.removedAt = none ∧ row.referenced = false ∧ db.pendingCase achievementId = none ∧
      db' = db.putMaterial evidenceId
        { row with removedAt := some now, version := row.version + 1, updatedAt := now } := by
  obtain ⟨_, _, h⟩ := bind_ok.mp h
  obtain ⟨_, heditable, h⟩ := bind_ok.mp h
  obtain ⟨row, hrow, h⟩ := bind_ok.mp h
  obtain ⟨hget, hachievement, hremoved⟩ := material_ok hrow
  obtain ⟨hfree, h⟩ := ensure_bind_ok.mp h
  exact ⟨row, hget, hachievement, hremoved, hfree, requireEditable_ok heditable,
    (Except.ok.inj h).symm⟩

theorem applyQualification_ok {version profileVersion : ℕ}
    (h : db.applyQualification now actor version profileVersion = .ok db') :
    ∃ row, db' = { db with qualifications := db.qualifications.put actor.userId row } ∧
      (db.qualifications.get actor.userId).any (fun q => q.approved) = false := by
  obtain ⟨_, _, h⟩ := bind_ok.mp h
  obtain ⟨profile, _, h⟩ := orRefuse_bind_ok.mp h
  obtain ⟨⟨_, hfree⟩, h⟩ := ensure_bind_ok.mp h
  refine ⟨_, (Except.ok.inj h).symm, ?_⟩
  cases hrow : db.qualifications.get actor.userId with
  | none => rfl
  | some q =>
    rw [hrow, Option.any_some, Bool.or_eq_false_iff] at hfree
    exact hfree.1

theorem approveQualification_ok {user : UserId} {version : ℕ}
    (h : db.approveQualification actor user version = .ok db') :
    ∃ row, row.approved = true ∧
      db' = { db with qualifications := db.qualifications.put user row } := by
  obtain ⟨_, _, h⟩ := bind_ok.mp h
  obtain ⟨row, _, h⟩ := orRefuse_bind_ok.mp h
  obtain ⟨_, h⟩ := ensure_bind_ok.mp h
  exact ⟨_, rfl, (Except.ok.inj h).symm⟩

end Specs

end ReviewDb

end CampusQuest.Innovation
