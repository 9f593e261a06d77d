import CampusQuest.NotificationTemplates

/-!
The port that records a business event inside the caller's transaction: the routing of the
event, the rendering of each channel's text, and the rows that freeze it. A refusal of any
part fails the transaction that the caller is in.
-/

namespace CampusQuest.Notifications

open Tables Guards Placeholders

abbrev Uuid := { t : Text // t.length = 36 ∧ nul ∉ t }

/-- An event key. Every producer builds one from a few words, identifiers and an instant, so it
leaves room for the suffix of a channel. -/
abbrev KeyText := { t : Text // t.length + 7 ≤ 255 ∧ nul ∉ t }

/-- A payload value; a datetime comes with its `isoformat`, and with its instant if it is aware,
and a `Decimal` with its text. -/
inductive PayloadValue
  | text (t : Text)
  | datetime (instant : Option Instant) (iso : Text)
  | int (n : ℤ)
  | decimal (t : Text)
  | uuid (id : Uuid)
  | bool (b : Bool)
  | null
  | other

abbrev Payload := List (Text × PayloadValue)

inductive RecordError
  | missingUser (user : UserId)
  | policyRequired
  | badClaimId
  | badDeadline
  | noTextForm
  | render (e : TemplateRenderError)
  | dataError
  | conflictUnread
  deriving DecidableEq

structure RecordIntent where
  eventKey : KeyText
  eventType : NotificationEventType
  userId : UserId
  scheduledAt : Instant
  channels : List NotificationChannel

section Routing

def everyChannel : List NotificationChannel := [.sms, .email, .inApp]

/-- The channels that `eligible_channels` finds eligible. A reminder needs its task's policy. -/
def eligibleChannels (user : User) (policy : Option TaskNotificationPolicy)
    (event : NotificationEventType) : Except RecordError (List NotificationChannel) := do
  ensure (event.deadlineReminder = true → policy.isSome = true) .policyRequired
  return everyChannel.filter fun channel =>
    (skipReason user (policy.getD {}) event channel).isNone

def reminderSpecs : List (NotificationEventType × Text × Duration) :=
  [(.assignmentDeadline24h, "deadline_24h".toList, hours 24),
    (.assignmentDeadline4h, "deadline_4h".toList, hours 4)]

def claimKey (id : Uuid) (suffix : Text) : Text :=
  "claim:".toList ++ id.1 ++ ':' :: suffix

theorem claimKey_ok (id : Uuid) {spec : NotificationEventType × Text × Duration}
    (h : spec ∈ reminderSpecs) :
    (claimKey id spec.2.1).length + 7 ≤ 255 ∧ nul ∉ claimKey id spec.2.1 := by
  have hwords : nul ∉ "claim:".toList ∧ nul ≠ ':' ∧ spec.2.1.length ≤ 12 ∧ nul ∉ spec.2.1 := by
    simp only [reminderSpecs, List.mem_cons, List.not_mem_nil, or_false] at h
    rcases h with rfl | rfl <;> decide
  obtain ⟨hclaim, hcolon, hlength, hsuffix⟩ := hwords
  constructor
  · simp only [claimKey, List.length_append, List.length_cons, id.2.1]
    have hsix : "claim:".toList.length = 6 := by decide
    omega
  · simp only [claimKey, List.mem_append, List.mem_cons, not_or]
    exact ⟨⟨hclaim, id.2.2⟩, hcolon, hsuffix⟩

/-- One planned reminder, unless its instant has passed or no channel is left. -/
def planReminder (user : User) (userId : UserId) (id : Uuid) (deadline now : Instant)
    (policy : TaskNotificationPolicy)
    (spec : { spec // spec ∈ reminderSpecs }) : Except RecordError (Option RecordIntent) := do
  if deadline - spec.1.2.2 < now then return none
  else
    let channels ← eligibleChannels user (some policy) spec.1.1
    if channels = [] then return none
    else return some {
      eventKey := ⟨claimKey id spec.1.2.1, claimKey_ok id spec.2⟩
      eventType := spec.1.1
      userId
      scheduledAt := deadline - spec.1.2.2
      channels }

def scheduleClaimDeadlines (user : User) (userId : UserId) (id : Uuid) (deadline now : Instant)
    (policy : TaskNotificationPolicy) : Except RecordError (List RecordIntent) := do
  let plans ← reminderSpecs.attach.mapM (planReminder user userId id deadline now policy)
  return plans.reduceOption

def claimDeadlineSnapshot (parseUuid : Text → Option Uuid) (payload : Payload) :
    Except RecordError (Option (Uuid × Instant)) :=
  match payload.lookup "claim_id".toList, payload.lookup "deadline_at".toList with
  | none, _ | some .null, _ | _, none | _, some .null => .ok none
  | some rawId, some deadline => do
    let id ← match rawId with
      | .uuid id => Except.ok id
      | .text t | .decimal t => orRefuse .badClaimId (parseUuid t)
      | .int n => orRefuse .badClaimId (parseUuid (toString n).toList)
      | _ => .error .badClaimId
    match deadline with
    | .datetime (some instant) _ => return some (id, instant)
    | _ => .error .badDeadline

inductive RecordedEvent
  | claimCreated
  | event (type : NotificationEventType)

def deadlinePlanningIntents (parseUuid : Text → Option Uuid) (user : User) (userId : UserId)
    (payload : Payload) (now : Instant) (policy : Option TaskNotificationPolicy) :
    Except RecordError (List RecordIntent) := do
  match ← claimDeadlineSnapshot parseUuid payload with
  | none => return []
  | some (id, deadline) => do
    let policy ← orRefuse .policyRequired policy
    scheduleClaimDeadlines user userId id deadline now policy

/-- `build_record_intents`. A failed validation also plans the reminders anew. -/
def buildRecordIntents (parseUuid : Text → Option Uuid) (user : User) (userId : UserId)
    (eventKey : KeyText) (recorded : RecordedEvent) (payload : Payload) (now : Instant)
    (policy : Option TaskNotificationPolicy) : Except RecordError (List RecordIntent) :=
  match recorded with
  | .claimCreated => deadlinePlanningIntents parseUuid user userId payload now policy
  | .event type => do
    let channels ← eligibleChannels user policy type
    let planned ←
      if type = .submissionValidationFailed then
        deadlinePlanningIntents parseUuid user userId payload now policy
      else .ok []
    return ⟨eventKey, type, userId, now, channels⟩ :: planned

end Routing

section Columns

/-- A `varchar` column: what is beyond its width must be spaces, and these are dropped. -/
def storeVarchar (width : ℕ) (t : Text) : Except RecordError Text := do
  ensure (nul ∉ t ∧ ∀ c ∈ t.drop width, c = ' ') .dataError
  return t.take width

def storeText (t : Text) : Except RecordError Text := do
  ensure (nul ∉ t) .dataError
  return t

def channelCode : NotificationChannel → Text
  | .sms => "SMS".toList
  | .email => "EMAIL".toList
  | .inApp => "IN_APP".toList

abbrev NotificationKey := Text × UserId

structure PlannedDelivery where
  notification : NotificationKey
  status : DeliveryStatus
  scheduledAt : Instant
  attempts : ℕ
  deriving DecidableEq

/-- The tables of the port. Notifications and deliveries are found by their unique keys. -/
structure PortDb where
  users : Table UserId User
  templates : List ManagedTemplate
  notifications : Table NotificationKey Notification
  deliveries : Table (NotificationKey × NotificationChannel) PlannedDelivery

/-- `_insert_notification`: the first writer's text stays. -/
def insertNotification (db : PortDb) (key : Text) (user : UserId) (event : NotificationEventType)
    (rendered : TemplateText) : Except RecordError (NotificationKey × PortDb) := do
  let storedKey ← storeVarchar 255 key
  let title ← storeVarchar 255 rendered.title
  let body ← storeText rendered.body
  match db.notifications.get (storedKey, user) with
  | none => return ((storedKey, user), { db with
      notifications := db.notifications.put (storedKey, user) ⟨event, title, body, none⟩ })
  | some _ => do
    ensure ((db.notifications.get (key, user)).isSome = true) .conflictUnread
    return ((key, user), db)

def insertDelivery (db : PortDb) (intent : RecordIntent) (channel : NotificationChannel)
    (notification : NotificationKey) : Except RecordError PortDb := do
  let storedKey ← storeVarchar 255 intent.eventKey.1
  match db.deliveries.get ((storedKey, intent.userId), channel) with
  | some _ => return db
  | none => return { db with
      deliveries := db.deliveries.put ((storedKey, intent.userId), channel)
        ⟨notification, .pending, intent.scheduledAt, 0⟩ }

end Columns

section Recording

def renderValue : PayloadValue → Except RecordError Text
  | .text t => .ok t
  | .datetime _ iso => .ok iso
  | .int n => .ok (toString n).toList
  | .decimal t => .ok t
  | .uuid _ | .bool _ | .null | .other => .error .noTextForm

def renderValues (payload : Payload) : List Text → Except RecordError (List (Text × Text))
  | [] => .ok []
  | name :: rest =>
    match payload.lookup name with
    | none => renderValues payload rest
    | some value => do
      let text ← renderValue value
      let values ← renderValues payload rest
      return (name, text) :: values

def eventValues (payload : Payload) (event : NotificationEventType) :
    Except RecordError (Text → Option Text) := do
  let values ← renderValues payload (eventVariables event)
  return fun name => values.lookup name

def channelTemplate (templates : List ManagedTemplate) (event : NotificationEventType)
    (channel : NotificationChannel) : Option ManagedTemplate :=
  templates.find? fun row => row.eventType = event && row.channel = channel

/-- The render of an enabled row; a row that fails to render has none. -/
def renderManaged (templates : List ManagedTemplate) (event : NotificationEventType)
    (channel : NotificationChannel) (values : Text → Option Text) : Option TemplateText :=
  match channelTemplate templates event channel with
  | none => none
  | some row =>
    if row.enabled = true then
      match renderTemplate event channel values (some row.text) with
      | .ok rendered => some rendered
      | .error _ => none
    else none

def renderInAppSnapshot (templates : List ManagedTemplate) (event : NotificationEventType)
    (values : Text → Option Text) : Except RecordError TemplateText :=
  match renderManaged templates event .inApp values with
  | some rendered => .ok rendered
  | none => (renderTemplate event .inApp values none).mapError .render

def snapshotEventKey (key : KeyText) (channel : NotificationChannel) : Text :=
  key.1 ++ ':' :: channelCode channel

def freezeChannels (intent : RecordIntent) (values : Text → Option Text) :
    PortDb → List NotificationChannel →
      Except RecordError (List (NotificationChannel × NotificationKey) × PortDb)
  | db, [] => .ok ([], db)
  | db, channel :: rest =>
    if channel = .inApp then freezeChannels intent values db rest
    else
      match renderManaged db.templates intent.eventType channel values with
      | none => freezeChannels intent values db rest
      | some product => do
        let (snapshot, db₁) ← insertNotification db (snapshotEventKey intent.eventKey channel)
          intent.userId intent.eventType product
        let (snapshots, db₂) ← freezeChannels intent values db₁ rest
        return ((channel, snapshot) :: snapshots, db₂)

def insertDeliveries (intent : RecordIntent) (canonical : NotificationKey)
    (snapshots : List (NotificationChannel × NotificationKey)) :
    PortDb → List NotificationChannel → Except RecordError PortDb
  | db, [] => .ok db
  | db, channel :: rest => do
    let db₁ ← insertDelivery db intent channel ((snapshots.lookup channel).getD canonical)
    insertDeliveries intent canonical snapshots db₁ rest

def persistIntent (payload : Payload) (db : PortDb) (intent : RecordIntent) :
    Except RecordError PortDb :=
  if intent.channels = [] then .ok db
  else do
    let values ← eventValues payload intent.eventType
    let rendered ← renderInAppSnapshot db.templates intent.eventType values
    let (canonical, db₁) ←
      insertNotification db intent.eventKey.1 intent.userId intent.eventType rendered
    let (snapshots, db₂) ← freezeChannels intent values db₁ intent.channels
    insertDeliveries intent canonical snapshots db₂ intent.channels

def persistIntents (payload : Payload) : PortDb → List RecordIntent → Except RecordError PortDb
  | db, [] => .ok db
  | db, intent :: rest => do
    let db₁ ← persistIntent payload db intent
    persistIntents payload db₁ rest

def recordEvent (parseUuid : Text → Option Uuid) (db : PortDb) (now : Instant)
    (eventKey : KeyText) (recorded : RecordedEvent) (userId : UserId) (payload : Payload)
    (policy : Option TaskNotificationPolicy) : Except RecordError PortDb := do
  let user ← orRefuse (.missingUser userId) (db.users.get userId)
  let intents ← buildRecordIntents parseUuid user userId eventKey recorded payload now policy
  persistIntents payload db intents

end Recording

end CampusQuest.Notifications
