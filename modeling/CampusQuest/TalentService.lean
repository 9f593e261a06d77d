import CampusQuest.EvidenceService
import CampusQuest.RecruitmentService

/-!
The talent profile of a student: the private draft, the immutable revisions that the student
consents to, the files with their checks, and the reads of the campus. Every command of the
owner leaves a receipt under the request ids of the owner, and everything that the campus sees
carries a public version.
-/

namespace CampusQuest.Innovation

open Guards Tables
open Lifecycle (Account UserStatus)

abbrev ProfileId := ℕ
abbrev TalentFileId := ℕ
abbrev TagId := ℕ

inductive TalentError
  | accountNotActive
  | permissionDenied (message : String)
  | notFound
  | conflict (message kind : String)
  | runtime (message : String)
  deriving DecidableEq, Repr

inductive WorkMode
  | unspecified
  | online
  | offline
  | either
  deriving DecidableEq, Repr

inductive CooperationState
  | looking
  | openToOpportunities
  | notAvailable
  deriving DecidableEq, Repr

structure TalentLink where
  title : Text
  url : Text
  deriving DecidableEq

structure TalentContent where
  name : Text
  faculty : Text
  grade : Text
  introduction : Text
  advantages : Text
  tagIds : List TagId
  skillNotes : Text
  cooperationDirection : Text
  desiredRoles : Text
  weeklyHours : Option ℕ
  workMode : WorkMode
  cooperationState : Option CooperationState
  experience : Text
  links : List TalentLink
  fileIds : List TalentFileId
  deriving DecidableEq

def TalentContent.withoutFile (content : TalentContent) (fileId : TalentFileId) : TalentContent :=
  { content with fileIds := content.fileIds.filter fun f => f ≠ fileId }

structure TalentFields where
  content : TalentContent
  contacts : List Contact
  unique_tags : content.tagIds.Nodup
  unique_files : content.fileIds.Nodup
  unique_channels : (contacts.map Contact.channel).Nodup

namespace TalentFields

theorem eq_iff (a b : TalentFields) : a.content = b.content ∧ a.contacts = b.contacts ↔ a = b := by
  obtain ⟨_, _, _, _, _⟩ := a
  obtain ⟨_, _, _, _, _⟩ := b
  constructor
  · rintro ⟨rfl, rfl⟩
    rfl
  · intro h
    exact ⟨congrArg content h, congrArg contacts h⟩

instance : DecidableEq TalentFields := fun a b => decidable_of_iff _ (eq_iff a b)

def validatePublication (fields : TalentFields) : Prop :=
  (∀ t ∈ [fields.content.name, fields.content.faculty, fields.content.grade,
    fields.content.introduction, fields.content.advantages], t ≠ []) ∧
    fields.content.tagIds ≠ [] ∧ fields.content.cooperationState ≠ none

instance (fields : TalentFields) : Decidable fields.validatePublication :=
  inferInstanceAs (Decidable (_ ∧ _ ∧ _))

def withoutChannel (fields : TalentFields) (channel : ContactChannel) : TalentFields where
  content := fields.content
  contacts := fields.contacts.filter fun c => c.channel ≠ channel
  unique_tags := fields.unique_tags
  unique_files := fields.unique_files
  unique_channels := fields.unique_channels.sublist (List.filter_sublist.map _)

def withoutFile (fields : TalentFields) (fileId : TalentFileId) : TalentFields where
  content := fields.content.withoutFile fileId
  contacts := fields.contacts
  unique_tags := fields.unique_tags
  unique_files := fields.unique_files.sublist List.filter_sublist
  unique_channels := fields.unique_channels

end TalentFields

structure TalentProfile where
  id : ProfileId
  fields : TalentFields
  version : ℕ
  publicVersion : ℕ
  visible : Bool
  takenDown : Bool
  publicRevisionId : Option RevisionId
  publicUpdatedAt : Option Instant
  createdAt : Instant
  updatedAt : Instant
  deriving DecidableEq

structure TalentRevision where
  profileId : ProfileId
  number : ℕ
  content : TalentContent
  tags : List (TagId × Text)
  contacts : List Contact
  createdAt : Instant
  deriving DecidableEq

inductive TalentResource
  | profile (id : ProfileId)
  | file (id : TalentFileId)
  deriving DecidableEq

structure TalentActionReceipt where
  profileId : ProfileId
  fingerprint : Text
  action : String
  appliedVersion : ℕ
  resource : TalentResource
  createdAt : Instant
  deriving DecidableEq

/-- The state of a file, with the token and the start of a check that is on and with the digest of
what is READY. -/
inductive TalentFileState
  | pending
  | checking (token : CheckToken) (startedAt : Instant)
  | ready (sha256 : Text)
  | rejected
  deriving DecidableEq

namespace TalentFileState

def digest : TalentFileState → Option Text
  | ready sha256 => some sha256
  | pending | checking _ _ | rejected => none

def settled : TalentFileState → Bool
  | ready _ | rejected => true
  | pending | checking _ _ => false

def busy (now : Instant) : TalentFileState → Bool
  | checking _ startedAt => now < startedAt + checkLease
  | pending | ready _ | rejected => false

def checkToken : TalentFileState → Option CheckToken
  | checking token _ => some token
  | pending | ready _ | rejected => none

def interrupted : TalentFileState → TalentFileState
  | checking _ _ => pending
  | pending => pending
  | ready sha256 => ready sha256
  | rejected => rejected

def ofOutcome : CheckOutcome → TalentFileState
  | .passed sha256 => ready sha256
  | .missing | .unavailable => pending
  | .threat | .invalid => rejected

end TalentFileState

structure TalentFile where
  profileId : ProfileId
  creationRequestId : RequestId
  creationFingerprint : Text
  name : Text
  objectKey : Text
  contentType : Text
  size : ℕ
  state : TalentFileState
  failureCode : Option String
  removedAt : Option Instant
  revokedAt : Option Instant
  version : ℕ
  createdAt : Instant
  deriving DecidableEq

def TalentFile.Readable (file : TalentFile) : Prop :=
  file.state.digest ≠ none ∧ file.removedAt = none ∧ file.revokedAt = none

instance (file : TalentFile) : Decidable file.Readable :=
  inferInstanceAs (Decidable (_ ∧ _ ∧ _))

structure TalentTag where
  name : Text
  enabled : Bool
  deriving DecidableEq

structure TalentDb where
  users : Table UserId Account
  tags : Table TagId TalentTag
  /-- One profile for an owner. -/
  profiles : Table UserId TalentProfile
  revisions : Table RevisionId TalentRevision
  receipts : Table (UserId × RequestId) TalentActionReceipt
  files : Table TalentFileId TalentFile
  links : Table (RevisionId × TalentFileId) ProfileId

inductive TalentCommand
  | save (fields : TalentFields)
  | publish
  | hide
  | revokeContact (channel : ContactChannel)
  | removeFile (fileId : TalentFileId)
  | revokeFile (fileId : TalentFileId)
  deriving DecidableEq

def TalentCommand.action : TalentCommand → String
  | save _ => "save"
  | publish => "publish"
  | hide => "hide"
  | revokeContact _ => "revoke-contact"
  | removeFile _ => "remove-file"
  | revokeFile _ => "revoke-file"

def TalentCommand.resource (id : ProfileId) : TalentCommand → TalentResource
  | removeFile fileId | revokeFile fileId => .file fileId
  | save _ | publish | hide | revokeContact _ => .profile id

structure TalentPayload where
  command : TalentCommand
  version : ℕ
  requestId : RequestId
  deriving DecidableEq

structure TalentFileIntentCreate where
  requestId : RequestId
  name : Text
  contentType : Text
  size : ℕ
  deriving DecidableEq

structure TalentDigests where
  payload : TalentPayload → Text
  intent : TalentFileIntentCreate → Text

structure StoredObject where
  content : List UInt8
  contentType : Text
  deriving DecidableEq

/-- What a read of a file carries from its first transaction to its second one. -/
structure FileTicket where
  objectKey : Text
  size : ℕ
  contentType : Text
  sha256 : Option Text
  deriving DecidableEq

namespace TalentDb

variable (db : TalentDb)

def lockAccounts (actor : Actor) (ownerId : UserId) (student : Bool) : Except TalentError Unit := do
  ensure ((db.users.get actor.userId).any fun u => u.status = .active ∧ u.role = actor.role)
    .accountNotActive
  ensure ((db.users.get ownerId).any fun u => u.role = .student ∧ u.status = .active) .notFound
  ensure (student = true → actor.userId = ownerId ∧ actor.role = .student)
    (.permissionDenied "仅学生可维护本人档案")

def lockOwned (actor : Actor) (viewer : Option Actor) : Except TalentError TalentProfile := do
  db.lockAccounts (viewer.getD actor) actor.userId viewer.isNone
  orRefuse .notFound (db.profiles.get actor.userId)

def receipt (actor : Actor) (requestId : RequestId) (digest : Text) :
    Except TalentError (Option TalentActionReceipt) := do
  ensure ((db.receipts.get (actor.userId, requestId)).all fun r => r.fingerprint = digest)
    (.conflict "该请求已用于不同操作，请刷新后确认" "REQUEST_REUSE")
  .ok (db.receipts.get (actor.userId, requestId))

def checkTags (fields : TalentFields) : Except TalentError Unit :=
  ensure (∀ id ∈ fields.content.tagIds, (db.tags.get id).any fun t => t.enabled)
    (.conflict "所选技能标签已不可用，请重新选择" "TAG_UNAVAILABLE")

/-- `write_revision`: the next public version under a new revision. -/
def writeRevision (now : Instant) (row : TalentProfile) (revisionId : RevisionId)
    (content : TalentContent) (tags : List (TagId × Text)) (contacts : List Contact) :
    TalentDb × TalentProfile :=
  ({ db with
      revisions := db.revisions.put revisionId
        ⟨row.id, row.publicVersion + 1, content, tags, contacts, now⟩
      links := db.links.insertRows (content.fileIds.map fun f => ((revisionId, f), row.id)) },
    { row with
      publicVersion := row.publicVersion + 1
      publicRevisionId := some revisionId
      publicUpdatedAt := some now })

def replacePublic (now : Instant) (row : TalentProfile) (revisionId : RevisionId) :
    Except TalentError (TalentDb × TalentProfile) := do
  ensure row.fields.validatePublication
    (.conflict "请完善姓名、院系、年级、介绍、优势、至少一个技能标签及合作状态" "INCOMPLETE_PROFILE")
  db.checkTags row.fields
  ensure (∀ id ∈ row.fields.content.fileIds,
      (db.files.get id).any fun f => f.profileId = row.id ∧ f.Readable)
    (.conflict "所选作品尚未通过检查或已撤回，请重新选择" "FILE_UNAVAILABLE")
  .ok (db.writeRevision now row revisionId row.fields.content
    (row.fields.content.tagIds.filterMap fun id => (db.tags.get id).map fun t => (id, t.name))
    row.fields.contacts)

def publicRevision (row : TalentProfile) : Option TalentRevision :=
  row.publicRevisionId.bind db.revisions.get

def putFile (fileId : TalentFileId) (file : TalentFile) : TalentDb :=
  { db with files := db.files.put fileId file }

def lockFile (profileId : ProfileId) (fileId : TalentFileId) : Except TalentError TalentFile :=
  orRefuse .notFound ((db.files.get fileId).filter fun f =>
    f.profileId = profileId ∧ f.removedAt = none)

/-- What a new command of an existing profile does, apart from the version and the receipt. -/
def effect (now : Instant) (row : TalentProfile) (revisionId : RevisionId) :
    TalentCommand → Except TalentError (TalentDb × TalentProfile)
  | .save fields => do
    db.checkTags fields
    .ok (db, { row with fields := fields })
  | .publish => do
    ensure (row.takenDown = false) (.conflict "档案暂时无法开启展示" "MODERATED")
    let (db', row') ← db.replacePublic now row revisionId
    .ok (db', { row' with visible := true })
  | .hide => do
    ensure (row.visible = true) (.conflict "档案当前未公开" "NOT_VISIBLE")
    .ok (db, { row with visible := false, publicVersion := row.publicVersion + 1 })
  | .revokeContact channel => do
    let revision ← orRefuse (.conflict "该渠道当前未公开授权" "CONTACT_UNAVAILABLE")
      ((db.publicRevision row).filter fun r => r.contacts.any fun c => c.channel = channel)
    .ok (db.writeRevision now { row with fields := row.fields.withoutChannel channel } revisionId
      revision.content revision.tags (revision.contacts.filter fun c => c.channel ≠ channel))
  | .removeFile fileId => do
    let file ← db.lockFile row.id fileId
    ensure (¬ ((db.publicRevision row).any (fun r => fileId ∈ r.content.fileIds) = true ∧
        row.visible = true))
      (.conflict "文件当前公开展示，请先撤回公开文件" "FILE_PUBLIC")
    .ok (db.putFile fileId
        { file with
          removedAt := some now
          state := file.state.interrupted
          version := file.version + 1 },
      { row with fields := row.fields.withoutFile fileId })
  | .revokeFile fileId => do
    let file ← db.lockFile row.id fileId
    let revision ← orRefuse (.conflict "文件当前未获公开授权" "FILE_UNAVAILABLE")
      ((db.publicRevision row).filter fun r =>
        fileId ∈ r.content.fileIds ∧ file.revokedAt = none)
    .ok ((db.putFile fileId
        { file with
          revokedAt := some now
          state := file.state.interrupted
          version := file.version + 1 }).writeRevision now
      { row with fields := row.fields.withoutFile fileId } revisionId
      (revision.content.withoutFile fileId) revision.tags revision.contacts)

def newReceipt (digests : TalentDigests) (now : Instant) (row : TalentProfile)
    (payload : TalentPayload) : TalentActionReceipt where
  profileId := row.id
  fingerprint := digests.payload payload
  action := payload.command.action
  appliedVersion := row.version
  resource := payload.command.resource row.id
  createdAt := now

def finish (digests : TalentDigests) (now : Instant) (actor : Actor) (row : TalentProfile)
    (payload : TalentPayload) : TalentDb :=
  { db with
    profiles := db.profiles.put actor.userId row
    receipts := db.receipts.put (actor.userId, payload.requestId)
      (newReceipt digests now row payload) }

def bump (now : Instant) (row : TalentProfile) : TalentProfile :=
  { row with version := row.version + 1, updatedAt := now }

def act (digests : TalentDigests) (now : Instant) (actor : Actor) (payload : TalentPayload)
    (revisionId : RevisionId) : Except TalentError (TalentDb × TalentActionReceipt × Bool) := do
  let row ← db.lockOwned actor none
  let previous ← db.receipt actor payload.requestId (digests.payload payload)
  match previous with
  | some receipt => .ok (db, receipt, true)
  | none => do
    ensure (row.version = payload.version)
      (.conflict "档案已变化，请保留输入并刷新当前状态" "VERSION_CONFLICT")
    let (db', row') ← db.effect now row revisionId payload.command
    .ok (db'.finish digests now actor (bump now row') payload,
      newReceipt digests now (bump now row') payload, false)

def newProfile (now : Instant) (id : ProfileId) (fields : TalentFields) : TalentProfile where
  id := id
  fields := fields
  version := 1
  publicVersion := 0
  visible := false
  takenDown := false
  publicRevisionId := none
  publicUpdatedAt := none
  createdAt := now
  updatedAt := now

def saveFirst (digests : TalentDigests) (now : Instant) (actor : Actor) (payload : TalentPayload)
    (fields : TalentFields) (id : ProfileId) :
    Except TalentError (TalentDb × TalentActionReceipt × Bool) := do
  db.lockAccounts actor actor.userId true
  let _ ← db.receipt actor payload.requestId (digests.payload payload)
  ensure (payload.version = 0) (.conflict "档案已变化，请保留输入并刷新当前状态" "VERSION_CONFLICT")
  db.checkTags fields
  ensure (db.receipts.get (actor.userId, payload.requestId) = none) (.runtime "IntegrityError")
  .ok (db.finish digests now actor (newProfile now id fields) payload,
    newReceipt digests now (newProfile now id fields) payload, false)

def run (digests : TalentDigests) (now : Instant) (actor : Actor) (payload : TalentPayload)
    (revisionId : RevisionId) (id : ProfileId) :
    Except TalentError (TalentDb × TalentActionReceipt × Bool) :=
  match db.profiles.get actor.userId, payload.command with
  | none, .save fields => db.saveFirst digests now actor payload fields id
  | _, _ => db.act digests now actor payload revisionId

section Files

def createIntent (digests : TalentDigests) (now : Instant) (actor : Actor)
    (payload : TalentFileIntentCreate) (fileId : TalentFileId) (objectKey : Text) :
    Except TalentError TalentDb := do
  let profile ← db.lockOwned actor none
  let previous ← db.receipt actor payload.requestId (digests.intent payload)
  match db.files.find fun _ f =>
      f.profileId = profile.id ∧ f.creationRequestId = payload.requestId with
  | some (_, file) => do
    ensure (file.creationFingerprint = digests.intent payload)
      (.conflict "该上传请求已用于其他文件" "REQUEST_REUSE")
    ensure (file.removedAt = none ∧ file.revokedAt = none)
      (.conflict "该上传已移除或撤回，请重新选择文件" "FILE_UNAVAILABLE")
    ensure (previous ≠ none) (.runtime "Talent upload receipt missing")
    .ok db
  | none => do
    ensure (previous = none) (.runtime "Talent upload record missing")
    ensure ((db.files.count fun _ f =>
        f.profileId = profile.id ∧ f.removedAt = none ∧ f.revokedAt = none) < 10)
      (.conflict "最多保留 10 个上传记录，请先移除不需要的文件" "FILE_LIMIT")
    .ok
      { db with
        files := db.files.put fileId
          { profileId := profile.id
            creationRequestId := payload.requestId
            creationFingerprint := digests.intent payload
            name := payload.name
            objectKey := objectKey
            contentType := payload.contentType
            size := payload.size
            state := .pending
            failureCode := none
            removedAt := none
            revokedAt := none
            version := 1
            createdAt := now }
        receipts := db.receipts.put (actor.userId, payload.requestId)
          { profileId := profile.id
            fingerprint := digests.intent payload
            action := "create-file"
            appliedVersion := profile.version
            resource := .file fileId
            createdAt := now } }

def startCheck (now : Instant) (actor : Actor) (fileId : TalentFileId) (token : CheckToken) :
    Except TalentError TalentDb := do
  let profile ← db.lockOwned actor none
  let file ← db.lockFile profile.id fileId
  ensure (file.revokedAt = none) (.conflict "文件已撤回，无法再次检查" "FILE_UNAVAILABLE")
  if file.state.settled = true then .ok db
  else do
    ensure (file.state.busy now = false) (.conflict "文件正在检查，请稍后刷新" "CHECK_IN_PROGRESS")
    .ok (db.putFile fileId
      { file with
        state := .checking token now
        failureCode := none
        version := file.version + 1 })

def finishCheck (actor : Actor) (fileId : TalentFileId) (token : CheckToken)
    (outcome : CheckOutcome) : Except TalentError TalentDb := do
  let profile ← db.lockOwned actor none
  let file ← db.lockFile profile.id fileId
  ensure (file.revokedAt = none) .notFound
  ensure (file.state.checkToken = some token) (.conflict "检查状态已变化，请刷新" "CHECK_REPLACED")
  .ok (db.putFile fileId
    { file with
      state := TalentFileState.ofOutcome outcome
      failureCode := outcome.failureCode
      version := file.version + 1 })

end Files

section Reads

def lockVisible (viewer : Actor) (profileId : ProfileId) (expectedPublicVersion : ℕ) :
    Except TalentError TalentProfile := do
  let owned ← orRefuse .notFound (db.profiles.find fun _ p => p.id = profileId)
  let row ← db.lockOwned ⟨owned.1, .student⟩ (some viewer)
  ensure (row.id = profileId ∧ row.visible = true ∧ row.takenDown = false ∧
    row.publicRevisionId ≠ none) .notFound
  ensure (row.publicVersion = expectedPublicVersion)
    (.conflict "资料已更新，请刷新后重新确认联系或下载" "PUBLIC_VERSION_CHANGED")
  .ok row

def getContacts (viewer : Actor) (profileId : ProfileId) (expectedPublicVersion : ℕ) :
    Except TalentError (ℕ × List Contact) := do
  let row ← db.lockVisible viewer profileId expectedPublicVersion
  .ok (row.publicVersion, (db.publicRevision row).elim [] TalentRevision.contacts)

def lockPublicFile (row : TalentProfile) (fileId : TalentFileId) : Except TalentError TalentFile :=
  orRefuse .notFound ((db.files.get fileId).filter fun f =>
    f.profileId = row.id ∧ f.Readable ∧
      (row.publicRevisionId.bind fun r => db.links.get (r, fileId)) ≠ none)

def beginFileRead (viewer : Actor) (profileId : ProfileId) (fileId : TalentFileId)
    (expectedPublicVersion : ℕ) : Except TalentError FileTicket := do
  let row ← db.lockVisible viewer profileId expectedPublicVersion
  let file ← db.lockPublicFile row fileId
  .ok ⟨file.objectKey, file.size, file.contentType, file.state.digest⟩

/-- `read_file_content` after the download: the bytes are checked against the first transaction,
and the second one asks again. -/
def finishFileRead (sha256 : List UInt8 → Text) (viewer : Actor) (profileId : ProfileId)
    (fileId : TalentFileId) (expectedPublicVersion : ℕ) (ticket : FileTicket)
    (object : StoredObject) : Except TalentError StoredObject := do
  ensure (object.content.length = ticket.size ∧ object.contentType = ticket.contentType ∧
      some (sha256 object.content) = ticket.sha256)
    (.conflict "作品内容校验未通过，请联系发布者" "FILE_CHANGED")
  let row ← db.lockVisible viewer profileId expectedPublicVersion
  let file ← db.lockPublicFile row fileId
  ensure (file.state.digest = ticket.sha256 ∧ file.objectKey = ticket.objectKey)
    (.conflict "作品内容已改变，请刷新" "FILE_CHANGED")
  .ok object

end Reads

end TalentDb

end CampusQuest.Innovation
