import CampusQuest.ReviewRows

/-!
Recruitments of a project: the editor of the owner, the publication of a revision with its
authorised contacts, the maintenance by the clock and the delivery of the reminders. Every
command of the owner leaves a receipt under its request id, and the stored status may lag
behind the clock.
-/

namespace CampusQuest.Innovation

open Guards Tables
open Lifecycle (Account UserStatus)

abbrev RecruitmentId := ℕ
abbrev CycleId := ℕ
abbrev DeliveryId := ℕ

inductive RecruitmentError
  | account (error : InnovationError)
  | notFound
  | permissionDenied (message : String)
  | conflict (message kind : String)
  | validation (message : String)
  deriving DecidableEq, Repr

inductive ContactChannel
  | email
  | phone
  | qq
  | wechat
  deriving DecidableEq, Repr

structure Contact where
  channel : ContactChannel
  value : Text
  deriving DecidableEq

structure RecruitmentContent where
  projectTitle : Text
  direction : Text
  stage : Text
  introduction : Text
  ideaStage : Option Bool
  goal : Text
  initialPlan : Text
  roleName : Text
  headcount : Option ℕ
  duties : Text
  requirements : Text
  timeCommitment : Text
  beginnerFriendly : Option Bool
  deadlineAt : Option Instant
  deriving DecidableEq

structure RecruitmentFields where
  content : RecruitmentContent
  contacts : List Contact
  unique_channels : (contacts.map Contact.channel).Nodup
  deriving DecidableEq

namespace RecruitmentFields

def validatePublication (fields : RecruitmentFields) (now : Instant) : Except String Unit := do
  let c := fields.content
  ensure (∀ t ∈ [c.projectTitle, c.direction, c.stage, c.introduction, c.roleName, c.duties,
    c.requirements, c.timeCommitment], t ≠ []) "请填全项目介绍和岗位信息"
  ensure (c.ideaStage ≠ none ∧ c.beginnerFriendly ≠ none ∧ c.headcount ≠ none)
    "请明确选择创意起步、零基础和人数"
  ensure (c.ideaStage = some true → c.goal ≠ [] ∧ c.initialPlan ≠ []) "创意起步须填写目标与初步方案"
  ensure (fields.contacts ≠ []) "请明确选择至少一种授权联系渠道"
  ensure (c.deadlineAt.all (fun d => now < d) = true) "截止时间必须在未来"

def withoutChannel (fields : RecruitmentFields) (channel : ContactChannel) : RecruitmentFields where
  content := fields.content
  contacts := fields.contacts.filter fun c => c.channel ≠ channel
  unique_channels := (fields.unique_channels).sublist (List.filter_sublist.map _)

end RecruitmentFields

inductive RecruitmentStatus
  | draft
  | opened
  | closed
  | expired
  deriving DecidableEq, Repr

structure RecruitmentDraft where
  projectId : ProjectId
  creationRequestId : RequestId
  creationFingerprint : Text
  fields : RecruitmentFields
  version : ℕ
  status : RecruitmentStatus
  takenDown : Bool
  publicRevisionId : Option RevisionId
  cycleId : Option CycleId
  deadlineAt : Option Instant
  lastConfirmedAt : Option Instant
  nextRemindAt : Option Instant
  createdAt : Instant
  updatedAt : Instant
  deriving DecidableEq

structure RecruitmentRevision where
  recruitmentId : RecruitmentId
  number : ℕ
  content : RecruitmentContent
  createdAt : Instant
  deriving DecidableEq

structure ContactAuthorization where
  recruitmentId : RecruitmentId
  value : Text
  authorizedAt : Instant
  revokedAt : Option Instant
  deriving DecidableEq

structure RecruitmentReceipt where
  action : String
  fingerprint : Text
  appliedVersion : ℕ
  createdAt : Instant
  deriving DecidableEq

inductive ReminderStatus
  | pending
  | sending
  | retryable
  | failed
  | sent
  deriving DecidableEq, Repr

/-- The in-app delivery of a reminder, with the three parts of its event key. A skipped one is
SENT with a skip marker. -/
structure ReminderDelivery where
  recruitmentId : RecruitmentId
  cycleId : CycleId
  dueAt : Instant
  userId : UserId
  status : ReminderStatus
  skipped : Bool
  deriving DecidableEq

structure RecruitmentDb where
  users : Table UserId Account
  qualifications : Table UserId OwnerQualification
  projects : Table ProjectId ProjectDraft
  recruitments : Table RecruitmentId RecruitmentDraft
  revisions : Table RevisionId RecruitmentRevision
  contacts : Table (RevisionId × ContactChannel) ContactAuthorization
  receipts : Table (RecruitmentId × RequestId) RecruitmentReceipt
  reminders : Table DeliveryId ReminderDelivery

inductive RecruitmentCommand
  | update (fields : RecruitmentFields)
  | publish
  | reopen
  | close
  | confirmActive
  | revokeContact (channel : ContactChannel) (closeIfLast : Bool)
  deriving DecidableEq

def RecruitmentCommand.action : RecruitmentCommand → String
  | update _ => "update"
  | publish => "publish"
  | reopen => "reopen"
  | close => "close"
  | confirmActive => "confirm_active"
  | revokeContact _ _ => "revoke_contact"

/-- A command with the version it was issued against and its request id. -/
structure RecruitmentPayload where
  command : RecruitmentCommand
  version : ℕ
  requestId : RequestId
  deriving DecidableEq

structure RecruitmentDigests where
  creation : RecruitmentFields → Text
  payload : RecruitmentPayload → Text

def reminderPeriod : Instant := 30 * 24 * 60 * 60

def RecruitmentDraft.logicalStatus (row : RecruitmentDraft) (now : Instant) : RecruitmentStatus :=
  if row.status = .opened ∧ row.deadlineAt.any (fun d => d ≤ now) = true then .expired
  else row.status

def nextReminderDue (due now : Instant) : Instant :=
  if now < due then due else due + ((now - due) / reminderPeriod + 1) * reminderPeriod

structure RecruitmentDraftResponse where
  id : RecruitmentId
  projectId : ProjectId
  fields : RecruitmentFields
  version : ℕ
  status : RecruitmentStatus
  takenDown : Bool
  publicContactChannels : List ContactChannel
  hasUnpublishedChanges : Bool
  cycleId : Option CycleId
  deadlineAt : Option Instant
  lastConfirmedAt : Option Instant
  nextRemindAt : Option Instant
  createdAt : Instant
  updatedAt : Instant
  deriving DecidableEq

structure RecruitmentActionResult where
  action : String
  replayed : Bool
  appliedVersion : ℕ
  current : RecruitmentDraftResponse
  deriving DecidableEq

namespace RecruitmentDb

variable (db : RecruitmentDb)

def requireStudent (actor : Actor) : Except RecruitmentError Unit := do
  let account ← orRefuse (.account .authenticationRequired) (db.users.get actor.userId)
  ensure (actor.role = .student ∧ account.role = .student)
    (.account (.permissionDenied "仅学生可管理本人负责人资料"))
  ensure (account.status = .active) (.account .accountNotActive)

def lockProject (actor : Actor) (projectId : ProjectId) : Except RecruitmentError ProjectDraft := do
  db.requireStudent actor
  orRefuse .notFound ((db.projects.get projectId).filter fun p => p.ownerUserId = actor.userId)

def lockOwned (actor : Actor) (projectId : ProjectId) (id : RecruitmentId) :
    Except RecruitmentError RecruitmentDraft := do
  let _ ← db.lockProject actor projectId
  orRefuse .notFound ((db.recruitments.get id).filter fun row => row.projectId = projectId)

def liveContacts (revision : RevisionId) : List Contact :=
  [ContactChannel.email, .phone, .qq, .wechat].filterMap fun channel =>
    (db.contacts.get (revision, channel)).bind fun a =>
      if a.revokedAt = none then some ⟨channel, a.value⟩ else none

def publicContacts (row : RecruitmentDraft) : List Contact :=
  row.publicRevisionId.elim [] db.liveContacts

def response (now : Instant) (id : RecruitmentId) (row : RecruitmentDraft) :
    RecruitmentDraftResponse where
  id := id
  projectId := row.projectId
  fields := row.fields
  version := row.version
  status := row.logicalStatus now
  takenDown := row.takenDown
  publicContactChannels := (db.publicContacts row).map Contact.channel
  hasUnpublishedChanges :=
    ((row.publicRevisionId.bind db.revisions.get).any fun r => r.content = row.fields.content) = false ∨
      ¬ ((∀ c ∈ db.publicContacts row, c ∈ row.fields.contacts) ∧
        ∀ c ∈ row.fields.contacts, c ∈ db.publicContacts row)
  cycleId := row.cycleId
  deadlineAt := row.deadlineAt
  lastConfirmedAt := row.lastConfirmedAt
  nextRemindAt := row.nextRemindAt
  createdAt := row.createdAt
  updatedAt := row.updatedAt

def putRow (id : RecruitmentId) (row : RecruitmentDraft) : RecruitmentDb :=
  { db with recruitments := db.recruitments.put id row }

def newDraft (digests : RecruitmentDigests) (now : Instant) (projectId : ProjectId)
    (requestId : RequestId) (fields : RecruitmentFields) : RecruitmentDraft where
  projectId := projectId
  creationRequestId := requestId
  creationFingerprint := digests.creation fields
  fields := fields
  version := 1
  status := .draft
  takenDown := false
  publicRevisionId := none
  cycleId := none
  deadlineAt := none
  lastConfirmedAt := none
  nextRemindAt := none
  createdAt := now
  updatedAt := now

def create (digests : RecruitmentDigests) (now : Instant) (actor : Actor) (projectId : ProjectId)
    (requestId : RequestId) (fields : RecruitmentFields) (id : RecruitmentId) :
    Except RecruitmentError RecruitmentDb := do
  let _ ← db.lockProject actor projectId
  match db.recruitments.find fun _ row =>
      row.projectId = projectId ∧ row.creationRequestId = requestId with
  | some (_, row) => do
    ensure (row.creationFingerprint = digests.creation fields)
      (.conflict "此请求已用于不同内容" "REQUEST_CONFLICT")
    .ok db
  | none => .ok (db.putRow id (newDraft digests now projectId requestId fields))

/-- `_receipt`: the receipt of a request that was applied, or none for a new one. -/
def receipt (digests : RecruitmentDigests) (id : RecruitmentId) (row : RecruitmentDraft)
    (payload : RecruitmentPayload) : Except RecruitmentError (Option RecruitmentReceipt) :=
  match db.receipts.get (id, payload.requestId) with
  | some prior => do
    ensure (prior.fingerprint = digests.payload payload)
      (.conflict "同一请求不能改用其他动作或内容" "REQUEST_CONFLICT")
    .ok (some prior)
  | none => do
    ensure (payload.version = row.version)
      (.conflict "内容已变化，请重新读取后再操作" "VERSION_CONFLICT")
    .ok none

def authorizations (now : Instant) (id : RecruitmentId) (revision : RevisionId)
    (contacts : List Contact) : List ((RevisionId × ContactChannel) × ContactAuthorization) :=
  contacts.map fun c =>
    ((revision, c.channel),
      { recruitmentId := id
        value := c.value
        authorizedAt := now
        revokedAt := none })

def maxRevision (id : RecruitmentId) : ℕ :=
  db.revisions.keys.sup fun revision => (db.revisions.get revision).elim 0 fun r =>
    if r.recruitmentId = id then r.number else 0

def publishedRow (now : Instant) (row : RecruitmentDraft) (newCycle : Bool)
    (revision : RevisionId) (cycle : CycleId) : RecruitmentDraft :=
  let deadline := row.fields.content.deadlineAt
  let switches := row.deadlineAt.isNone != deadline.isNone
  let startPeriod := newCycle || (row.deadlineAt.isSome && deadline.isNone)
  { row with
    cycleId := if newCycle || switches then some cycle else row.cycleId
    deadlineAt := deadline
    lastConfirmedAt :=
      if deadline.isSome then none else if startPeriod then some now else row.lastConfirmedAt
    nextRemindAt :=
      if deadline.isSome then none
      else if startPeriod then some (now + reminderPeriod) else row.nextRemindAt
    publicRevisionId := some revision
    status := .opened }

def putPublication (now : Instant) (id : RecruitmentId) (fields : RecruitmentFields)
    (revision : RevisionId) : RecruitmentDb :=
  { db with
    revisions := db.revisions.put revision ⟨id, db.maxRevision id + 1, fields.content, now⟩
    contacts := db.contacts.insertRows (authorizations now id revision fields.contacts) }

/-- `_publish_revision`, with the ids it draws. -/
def publishRevision (now : Instant) (id : RecruitmentId) (row : RecruitmentDraft)
    (newCycle : Bool) (revision : RevisionId) (cycle : CycleId) :
    Except RecruitmentError (RecruitmentDb × RecruitmentDraft) :=
  match row.fields.validatePublication now with
  | .error message => .error (.validation message)
  | .ok () =>
    .ok (db.putPublication now id row.fields revision, publishedRow now row newCycle revision cycle)

def putRevocation (now : Instant) (revision : RevisionId) (channel : ContactChannel) :
    RecruitmentDb :=
  { db with
    contacts := db.contacts.updateWhere (fun key _ => key = (revision, channel))
      fun a => { a with revokedAt := some now } }

/-- `_revoke`: the channel loses its authorisation and leaves the draft; without a channel left
the recruitment is closed. -/
def revoke (now : Instant) (row : RecruitmentDraft) (channel : ContactChannel)
    (closeIfLast : Bool) : Except RecruitmentError (RecruitmentDb × RecruitmentDraft) := do
  let contacts := db.publicContacts row
  let revision ← orRefuse (.conflict "该渠道当前没有公开授权" "CONTACT_CONFLICT")
    (row.publicRevisionId.filter fun _ => contacts.any fun c => c.channel = channel)
  ensure (contacts.length = 1 → closeIfLast = true)
    (.conflict "撤销最后渠道须同时确认关闭招募" "LAST_CONTACT_REQUIRES_CLOSE")
  .ok (db.putRevocation now revision channel,
    { row with
      fields := row.fields.withoutChannel channel
      status := if contacts.length = 1 then .closed else row.status })

/-- What a new command does, apart from the version and the receipt. -/
def effect (now : Instant) (actor : Actor) (id : RecruitmentId) (row : RecruitmentDraft)
    (revision : RevisionId) (cycle : CycleId) :
    RecruitmentCommand → Except RecruitmentError (RecruitmentDb × RecruitmentDraft)
  | .update fields => .ok (db, { row with fields := fields })
  | .publish => do
    ensure (row.takenDown = false) (.conflict "岗位当前不可恢复公开" "MODERATION_CONFLICT")
    ensure ((db.qualifications.get actor.userId).any fun q => q.approved)
      (.permissionDenied "发布招募须先开通负责人资格")
    ensure (row.logicalStatus now = .draft ∨ row.logicalStatus now = .opened)
      (.conflict "请使用符合当前状态的发布或重新开放动作" "STATE_CONFLICT")
    db.publishRevision now id row (row.logicalStatus now ≠ .opened) revision cycle
  | .reopen => do
    ensure (row.takenDown = false) (.conflict "岗位当前不可恢复公开" "MODERATION_CONFLICT")
    ensure ((db.qualifications.get actor.userId).any fun q => q.approved)
      (.permissionDenied "发布招募须先开通负责人资格")
    ensure (row.logicalStatus now = .closed ∨ row.logicalStatus now = .expired)
      (.conflict "请使用符合当前状态的发布或重新开放动作" "STATE_CONFLICT")
    db.publishRevision now id row (row.logicalStatus now ≠ .opened) revision cycle
  | .close => do
    ensure (row.logicalStatus now = .opened) (.conflict "当前岗位未开放" "STATE_CONFLICT")
    .ok (db, { row with status := .closed })
  | .confirmActive => do
    ensure (row.takenDown = false) (.conflict "岗位当前不可恢复公开" "MODERATION_CONFLICT")
    ensure (row.logicalStatus now = .opened ∧ row.deadlineAt = none)
      (.conflict "仅无日期的有效岗位可确认继续" "STATE_CONFLICT")
    .ok (db,
      { row with
        cycleId := some cycle
        lastConfirmedAt := some now
        nextRemindAt := some (now + reminderPeriod) })
  | .revokeContact channel closeIfLast => db.revoke now row channel closeIfLast

def finish (digests : RecruitmentDigests) (now : Instant) (id : RecruitmentId)
    (row : RecruitmentDraft) (payload : RecruitmentPayload) : RecruitmentDb :=
  { db with
    recruitments := db.recruitments.put id
      { row with version := row.version + 1, updatedAt := now }
    receipts := db.receipts.put (id, payload.requestId)
      ⟨payload.command.action, digests.payload payload, row.version + 1, now⟩ }

/-- What `update` and `_act` share: the rows after a command, its receipt, and whether the
receipt was there before. -/
def run (digests : RecruitmentDigests) (now : Instant) (actor : Actor) (projectId : ProjectId)
    (id : RecruitmentId) (payload : RecruitmentPayload) (revision : RevisionId) (cycle : CycleId) :
    Except RecruitmentError (RecruitmentDb × RecruitmentReceipt × Bool) := do
  let row ← db.lockOwned actor projectId id
  let prior ← db.receipt digests id row payload
  match prior with
  | some receipt => .ok (db, receipt, true)
  | none => do
    let (db', row') ← db.effect now actor id row revision cycle payload.command
    .ok (db'.finish digests now id row' payload,
      ⟨payload.command.action, digests.payload payload, row'.version + 1, now⟩, false)

/-- The answer of `update` shows the recruitment as it is now. -/
def updateAnswer (now : Instant) (id : RecruitmentId) : Option RecruitmentDraftResponse :=
  (db.recruitments.get id).map (db.response now id)

/-- The answer of `_act` shows the version that the command was applied at, too. -/
def actAnswer (now : Instant) (id : RecruitmentId) (receipt : RecruitmentReceipt)
    (payload : RecruitmentPayload) (replayed : Bool) : Option RecruitmentActionResult :=
  (db.recruitments.get id).map fun row =>
    { action := payload.command.action
      replayed := replayed
      appliedVersion := receipt.appliedVersion
      current := db.response now id row }

def Visible (now : Instant) (row : RecruitmentDraft) : Prop :=
  row.status = .opened ∧ row.takenDown = false ∧
    row.deadlineAt.all (fun d => now < d) = true ∧
    (row.publicRevisionId.bind db.revisions.get).isSome = true ∧
    ((db.projects.get row.projectId).any fun p =>
      ((db.users.get p.ownerUserId).any fun u => u.role = .student ∧ u.status = .active) &&
        (db.qualifications.get p.ownerUserId).any fun q => q.approved) = true ∧
    db.publicContacts row ≠ []

instance (now : Instant) (row : RecruitmentDraft) : Decidable (db.Visible now row) :=
  inferInstanceAs (Decidable (_ ∧ _ ∧ _ ∧ _ ∧ _ ∧ _))

def query (now : Instant) : List (RecruitmentId × RecruitmentDraft) :=
  db.recruitments.scan (fun _ row => db.Visible now row) fun row => row.updatedAt

def getContacts (now : Instant) (viewer : Actor) (id : RecruitmentId) :
    Except RecruitmentError (List Contact) := do
  ensure ((db.users.get viewer.userId).any fun u => u.role = viewer.role ∧ u.status = .active)
    (.permissionDenied "账号当前不可用")
  let row ← orRefuse .notFound ((db.recruitments.get id).filter fun row => db.Visible now row)
  .ok (db.publicContacts row)

section Maintenance

def expireIfDue (now : Instant) (id : RecruitmentId) : RecruitmentDb :=
  match db.recruitments.get id with
  | none => db
  | some row =>
    if row.status = .opened ∧ row.deadlineAt.any (fun d => d ≤ now) = true then
      db.putRow id { row with status := .expired, version := row.version + 1, updatedAt := now }
    else db

/-- `record_event`: one in-app intent for an event key and a user. -/
def recordReminder (delivery : DeliveryId) (reminder : ReminderDelivery) : RecruitmentDb :=
  match db.reminders.find fun _ r => r.recruitmentId = reminder.recruitmentId ∧
      r.cycleId = reminder.cycleId ∧ r.dueAt = reminder.dueAt ∧ r.userId = reminder.userId with
  | some _ => db
  | none => { db with reminders := db.reminders.put delivery reminder }

def dueReminder (now : Instant) (row : RecruitmentDraft) : Option (CycleId × Instant) :=
  match row.cycleId, row.nextRemindAt with
  | some cycle, some due =>
    if row.deadlineAt = none ∧ due ≤ now ∧ db.Visible now row then some (cycle, due) else none
  | _, _ => none

def remindIfDue (now : Instant) (id : RecruitmentId) (delivery : DeliveryId) : RecruitmentDb :=
  match db.recruitments.get id with
  | none => db
  | some row =>
    match db.dueReminder now row, db.projects.get row.projectId with
    | some (cycle, due), some project =>
      (db.recordReminder delivery
        { recruitmentId := id
          cycleId := cycle
          dueAt := due
          userId := project.ownerUserId
          status := .pending
          skipped := false }).putRow id
        { row with
          nextRemindAt := some (nextReminderDue due now)
          version := row.version + 1
          updatedAt := now }
    | _, _ => db

def lockCurrentReminder (now : Instant) (id : RecruitmentId) (cycle : CycleId) : Bool :=
  (db.recruitments.get id).any fun row =>
    row.cycleId = some cycle ∧ row.deadlineAt = none ∧ db.Visible now row

def putReminder (delivery : DeliveryId) (reminder : ReminderDelivery) : RecruitmentDb :=
  { db with reminders := db.reminders.put delivery reminder }

/-- The first transaction of a send. A claim that was left behind is taken again. -/
def claimReminder (delivery : DeliveryId) : RecruitmentDb :=
  match db.reminders.get delivery with
  | none => db
  | some r =>
    if r.status = .sent ∨ r.status = .failed then db
    else db.putReminder delivery { r with status := .sending }

def skipReminder (delivery : DeliveryId) : RecruitmentDb :=
  match db.reminders.get delivery with
  | none => db
  | some r =>
    if r.status = .sending then db.putReminder delivery { r with status := .sent, skipped := true }
    else db

/-- `_finalize` of a reminder: whether it is still current is decided together with the status
that makes it readable. -/
def finalizeReminder (now : Instant) (delivery : DeliveryId) : RecruitmentDb :=
  match db.reminders.get delivery with
  | none => db
  | some r =>
    if r.status = .sending then
      db.putReminder delivery
        { r with
          status := .sent
          skipped := !db.lockCurrentReminder now r.recruitmentId r.cycleId }
    else db

end Maintenance

end RecruitmentDb

end CampusQuest.Innovation
