import CampusQuest.LifecycleRows
import CampusQuest.Guards

/-!
Rows of the notifications module and the routing decision for one channel. A delivery is
one row for each event key, user and channel; retries rewrite it. Its `updatedAt` is stamped
by the services only and stands for the time of the last claim while the row is SENDING.
-/

namespace CampusQuest.Notifications

open Tables Guards
open Lifecycle (ClaimStatus UserStatus)

abbrev NotificationId := ℕ
abbrev DeliveryId := ℕ
abbrev RecruitmentId := ℕ
abbrev CycleId := ℕ

inductive NotificationChannel
  | sms
  | email
  | inApp
  deriving DecidableEq, Repr

inductive DeliveryStatus
  | pending
  | retryable
  | sending
  | sent
  | failed
  deriving DecidableEq, Repr

def DeliveryStatus.terminal : DeliveryStatus → Bool
  | .sent | .failed => true
  | _ => false

inductive NotificationEventType
  | assignmentDeadline24h
  | assignmentDeadline4h
  | revisionRequired
  | submissionApproved
  | submissionValidationFailed
  | rewardRedemptionApproved
  | rewardRedemptionRejected
  | accountSecurity
  | ieAchievementApproved
  | ieAchievementReturned
  | ieRecruitmentConfirmationDue
  deriving DecidableEq, Repr

def NotificationEventType.deadlineReminder : NotificationEventType → Bool
  | .assignmentDeadline24h | .assignmentDeadline4h => true
  | _ => false

/-- Event keys as far as the service reads them back: `claim:<id>:…`,
`ie-recruitment:<id>:<cycle>:<due>`, and all others. -/
inductive EventKey
  | claim (id : ClaimId) (rest : Text)
  | recruitment (id : RecruitmentId) (cycle : CycleId) (due : Instant)
  | other (key : Text)
  deriving DecidableEq, Repr

def EventKey.claimId : EventKey → Option ClaimId
  | .claim id _ => some id
  | _ => none

def EventKey.recruitmentReminderIds : EventKey → Option (RecruitmentId × CycleId)
  | .recruitment id cycle _ => some (id, cycle)
  | _ => none

structure Notification where
  eventType : NotificationEventType
  title : Text
  body : Text
  readAt : Option Instant
  deriving DecidableEq

structure User where
  status : UserStatus
  phoneE164 : Option Text
  emailNormalized : Option Text
  emailVerifiedAt : Option Instant
  deriving DecidableEq

@[ext] structure NotificationDelivery where
  notificationId : NotificationId
  userId : UserId
  eventKey : EventKey
  channel : NotificationChannel
  status : DeliveryStatus
  scheduledAt : Instant
  attempts : ℕ
  sentAt : Option Instant
  providerMessageId : Option Text
  lastError : Option Text
  updatedAt : Instant
  deriving DecidableEq

structure Db where
  notifications : Table NotificationId Notification
  users : Table UserId User
  deliveries : Table DeliveryId NotificationDelivery

def Db.putDelivery (db : Db) (id : DeliveryId) (d : NotificationDelivery) : Db :=
  { db with deliveries := db.deliveries.put id d }

section Routing

/-- The task's side of the routing decision; the defaults are those of the schema. -/
structure TaskNotificationPolicy where
  notify24h : Bool := true
  notify4h : Bool := true
  channels : List NotificationChannel := [.sms, .email, .inApp]

/-- A text column that Python finds false. -/
def blank (t : Option Text) : Bool := t.all (·.isEmpty)

def skipReason (user : User) (policy : TaskNotificationPolicy) (event : NotificationEventType)
    (channel : NotificationChannel) : Option Text :=
  if user.status = .banned then some "account_banned".toList
  else if user.status = .pendingPhone then some "account_pending_phone".toList
  else if event = .assignmentDeadline24h ∧ policy.notify24h = false then
    some "task_notify_24h_disabled".toList
  else if event = .assignmentDeadline4h ∧ policy.notify4h = false then
    some "task_notify_4h_disabled".toList
  else if event.deadlineReminder = true ∧ channel ∉ policy.channels then
    some "task_channel_disabled".toList
  else
    match channel with
    | .sms => if blank user.phoneE164 then some "no_phone".toList else none
    | .email =>
      if blank user.emailNormalized then some "no_email".toList
      else if user.emailVerifiedAt.isNone then some "email_not_verified".toList
      else none
    | .inApp => none

/-- `_channel_decision`: dispatch looks at the account only, so the task's toggles keep their
defaults. -/
def channelSkipReason (user : User) (event : NotificationEventType)
    (channel : NotificationChannel) : Option Text :=
  skipReason user {} event channel

/-- Ordinary reminders go out only while the claim can still be worked on. -/
def shouldSendReminder (status : ClaimStatus) (now scheduled : Instant) : Bool :=
  status.actionable && scheduled ≤ now

def claimStatusText : ClaimStatus → Text
  | .claimed => "CLAIMED".toList
  | .validating => "VALIDATING".toList
  | .underReview => "UNDER_REVIEW".toList
  | .revisionRequired => "REVISION_REQUIRED".toList
  | .completed => "COMPLETED".toList
  | .abandoned => "ABANDONED".toList
  | .expired => "EXPIRED".toList

end Routing

end CampusQuest.Notifications
