import CampusQuest.DeliveryRows

/-!
The delivery service and the two other writers of a delivery's state. A send claims the row
in one transaction, calls the provider with no lock held and applies the outcome in a second
transaction. The claim carries no owner: the second transaction asks only whether the row is
SENDING. The recovery monitor and the operator's repair write rows that are SENDING too.
-/

namespace CampusQuest.Notifications

open Tables Guards
open Lifecycle (ClaimStatus)

def seconds (n : ℤ) : Duration := n * 1000000

structure DeliverySettings where
  maxAttempts : ℕ
  staleClaimThreshold : Duration
  stuckAfter : Duration
  batchLimit : ℕ
  maxAttempts_pos : 1 ≤ maxAttempts
  stale_pos : seconds 1 ≤ staleClaimThreshold
  stuck_pos : seconds 1 ≤ stuckAfter
  batchLimit_pos : 1 ≤ batchLimit

def DeliverySettings.default : DeliverySettings :=
  ⟨3, seconds 900, seconds 600, 500, by decide, by decide, by decide, by decide⟩

inductive SendOutcome
  | sent
  | skipped
  | retryScheduled
  | failed
  | alreadySent
  | alreadyFailed
  | notDue
  | inFlight
  | missing
  deriving DecidableEq, Repr

structure SendResult where
  deliveryId : DeliveryId
  outcome : SendOutcome
  status : Option DeliveryStatus
  attempts : ℕ
  scheduledAt : Option Instant
  skipReason : Option Text
  deriving DecidableEq

def SendResult.missing (id : DeliveryId) : SendResult := ⟨id, .missing, none, 0, none, none⟩

namespace NotificationDelivery

def observed (d : NotificationDelivery) (id : DeliveryId) (outcome : SendOutcome) : SendResult :=
  ⟨id, outcome, some d.status, d.attempts, some d.scheduledAt, none⟩

/-- A SENDING row whose claim is younger than the threshold. -/
def live (d : NotificationDelivery) (settings : DeliverySettings) (now : Instant) : Prop :=
  d.status = .sending ∧ now - d.updatedAt < settings.staleClaimThreshold

instance (d : NotificationDelivery) (settings : DeliverySettings) (now : Instant) :
    Decidable (d.live settings now) := inferInstanceAs (Decidable (_ ∧ _))

def begin (d : NotificationDelivery) (now : Instant) : NotificationDelivery :=
  { d with status := .sending, attempts := d.attempts + 1, updatedAt := now }

end NotificationDelivery

structure Claim where
  deliveryId : DeliveryId
  notificationId : NotificationId
  userId : UserId
  eventKey : EventKey
  eventType : NotificationEventType
  channel : NotificationChannel
  attempts : ℕ
  scheduledAt : Instant
  title : Text
  body : Text
  phoneE164 : Option Text
  emailNormalized : Option Text
  channelSkipReason : Option Text
  deriving DecidableEq

def NotificationDelivery.snapshot (d : NotificationDelivery) (id : DeliveryId) (n : Notification)
    (u : User) : Claim :=
  ⟨id, d.notificationId, d.userId, d.eventKey, n.eventType, d.channel, d.attempts, d.scheduledAt,
    n.title, n.body, u.phoneE164, u.emailNormalized, channelSkipReason u n.eventType d.channel⟩

/-- Lock, decide and claim the row. A delivery without its notification or its user raises,
and the transaction is rolled back. -/
def claim (db : Db) (settings : DeliverySettings) (id : DeliveryId) (now : Instant) :
    Option (Except SendResult Claim × Db) :=
  match db.deliveries.get id with
  | none => some (.error (.missing id), db)
  | some d =>
    if d.status = .sent then some (.error (d.observed id .alreadySent), db)
    else if d.status = .failed then some (.error (d.observed id .alreadyFailed), db)
    else if d.live settings now then some (.error (d.observed id .inFlight), db)
    else if now < d.scheduledAt then some (.error (d.observed id .notDue), db)
    else
      match db.notifications.get d.notificationId, db.users.get d.userId with
      | some n, some u =>
        some (.ok ((d.begin now).snapshot id n u), db.putDelivery id (d.begin now))
      | _, _ => none

structure Finalization where
  outcome : SendOutcome
  status : DeliveryStatus
  lastError : Option Text
  retryDueAt : Option Instant
  clearNotificationReadAt : Bool
  providerMessageId : Option Text
  recruitmentReminder : Option (RecruitmentId × CycleId)
  deriving DecidableEq

section Dispatch

/-- Programming errors that end a send between its two transactions. -/
inductive DispatchError
  | invalidReminderKey
  | reminderRequiresInApp
  | noBoundPhone
  | noAddress
  deriving DecidableEq, Repr

def skippedPrefix : Text := "skipped:".toList

def Finalization.skip (token : Text) : Finalization :=
  ⟨.skipped, .sent, some token, none, false, none, none⟩

/-- The marker with which dispatch policy cancels the send. `claimStatus` reads the claims as
they are at this moment. -/
def dispatchSkipToken (c : Claim) (now : Instant) (claimStatus : ClaimId → Option ClaimStatus) :
    Except DispatchError (Option Text) :=
  match c.channelSkipReason with
  | some reason => .ok (some (skippedPrefix ++ reason))
  | none =>
    if c.eventType = .ieRecruitmentConfirmationDue then
      if c.eventKey.recruitmentReminderIds = none then .error .invalidReminderKey
      else if c.channel ≠ .inApp then .error .reminderRequiresInApp
      else .ok none
    else if c.eventType.deadlineReminder = true then
      match c.eventKey.claimId with
      | none => .ok none
      | some id =>
        match claimStatus id with
        | none => .ok (some (skippedPrefix ++ "deadline_claim_status:missing".toList))
        | some status =>
          if shouldSendReminder status now c.scheduledAt = true then .ok none
          else .ok (some (skippedPrefix ++ "deadline_claim_status:".toList ++
            claimStatusText status))
    else .ok none

/-- The in-app message is the notification row itself. -/
def Finalization.inApp (c : Claim) : Finalization :=
  ⟨.sent, .sent, none, none, true, none,
    if c.eventType = .ieRecruitmentConfirmationDue then c.eventKey.recruitmentReminderIds
    else none⟩

/-- What the provider is asked for; the key derives from the identity of the row alone. -/
structure ProviderRequest where
  channel : NotificationChannel
  recipient : Text
  template : NotificationEventType
  title : Text
  body : Text
  idempotencyKey : EventKey × NotificationChannel × UserId
  deriving DecidableEq

def providerIdempotencyKey (eventKey : EventKey) (channel : NotificationChannel) (userId : UserId) :
    EventKey × NotificationChannel × UserId := (eventKey, channel, userId)

def Claim.requestTo (c : Claim) (recipient : Text) : ProviderRequest :=
  ⟨c.channel, recipient, c.eventType, c.title, c.body,
    providerIdempotencyKey c.eventKey c.channel c.userId⟩

def Claim.request (c : Claim) : Except DispatchError ProviderRequest :=
  if c.channel = .sms then c.requestTo <$> orRefuse .noBoundPhone c.phoneE164
  else c.requestTo <$> orRefuse .noAddress c.emailNormalized

/-- A claimed send either resolves at once or calls the provider. -/
def dispatch (c : Claim) (now : Instant) (claimStatus : ClaimId → Option ClaimStatus) :
    Except DispatchError (Finalization ⊕ ProviderRequest) := do
  match ← dispatchSkipToken c now claimStatus with
  | some token => return .inl (.skip token)
  | none => if c.channel = .inApp then return .inl (.inApp c) else return .inr (← c.request)

end Dispatch

section Outcomes

inductive Reply
  | accepted (receipt : Option Text)
  | permanent (error : Text)
  | unknownOutcome (error : Text)
  | temporary (error : Text)
  deriving DecidableEq

def retryDelays : List Duration := [seconds 60, seconds 300, seconds 1200]

/-- Bounded retry for temporary and unknown failures. A ceiling above the ladder uses its
last rung again. -/
def retryOrFail (settings : DeliverySettings) (c : Claim) (now : Instant) (error : Text) :
    Finalization :=
  if settings.maxAttempts ≤ c.attempts then ⟨.failed, .failed, some error, none, false, none, none⟩
  else
    ⟨.retryScheduled, .retryable, some error,
      some (now + retryDelays.getD (min c.attempts retryDelays.length - 1) 0), false, none, none⟩

def onReply (settings : DeliverySettings) (c : Claim) (now : Instant) : Reply → Finalization
  | .accepted receipt => ⟨.sent, .sent, none, none, false, receipt, none⟩
  | .permanent error =>
    ⟨.failed, .failed, some ("permanent:".toList ++ error), none, false, none, none⟩
  | .unknownOutcome error => retryOrFail settings c now ("unknown_outcome:".toList ++ error)
  | .temporary error => retryOrFail settings c now ("temporary:".toList ++ error)

end Outcomes

section Finalize

/-- A recruitment reminder is judged under its locks together with the write. -/
def Finalization.judge (f : Finalization) (current : Bool) : Finalization :=
  if f.recruitmentReminder.isSome && !current then
    { f with
      outcome := .skipped
      lastError := some (skippedPrefix ++ "recruitment_obsolete".toList)
      clearNotificationReadAt := false }
  else f

def NotificationDelivery.settle (d : NotificationDelivery) (now : Instant) (f : Finalization) :
    NotificationDelivery :=
  { d with
    status := f.status
    updatedAt := now
    lastError := f.lastError
    providerMessageId := f.providerMessageId
    sentAt := if f.status = .sent then some now else d.sentAt
    scheduledAt := f.retryDueAt.getD d.scheduledAt }

def Db.clearReadAt (db : Db) (id : NotificationId) : Db :=
  match db.notifications.get id with
  | none => db
  | some n => { db with notifications := db.notifications.put id { n with readAt := none } }

/-- Apply the outcome of a send if the row is still SENDING. -/
def finalize (db : Db) (id : DeliveryId) (now : Instant) (given : Finalization)
    (current : Bool) : SendResult × Db :=
  let f := given.judge current
  match db.deliveries.get id with
  | none => (.missing id, db)
  | some d =>
    if d.status = .sending then
      let written := db.putDelivery id (d.settle now f)
      (⟨id, f.outcome, some f.status, d.attempts, some (f.retryDueAt.getD d.scheduledAt),
          if f.outcome = .skipped then f.lastError else none⟩,
        if f.clearNotificationReadAt then written.clearReadAt d.notificationId else written)
    else if d.status = .sent then (d.observed id .alreadySent, db)
    else if d.status = .failed then (d.observed id .alreadyFailed, db)
    else (d.observed id .inFlight, db)

end Finalize

section Recovery

def NotificationDelivery.stuck (d : NotificationDelivery) (settings : DeliverySettings)
    (now : Instant) : Prop :=
  d.status = .sending ∧ d.updatedAt ≤ now - settings.stuckAfter

instance (d : NotificationDelivery) (settings : DeliverySettings) (now : Instant) :
    Decidable (d.stuck settings now) := inferInstanceAs (Decidable (_ ∧ _))

/-- The rows that one beat of the monitor takes: oldest claim first, then by id. -/
def stuckSending (db : Db) (settings : DeliverySettings) (now : Instant) : List DeliveryId :=
  ((db.deliveries.scan (fun _ d => d.stuck settings now) (·.updatedAt)).take
    settings.batchLimit).map Prod.fst

def NotificationDelivery.recover (d : NotificationDelivery) (now : Instant) :
    NotificationDelivery :=
  { d with
    status := .retryable
    lastError := some "stuck-SENDING recovery".toList
    updatedAt := now }

def Db.recoverOne (db : Db) (now : Instant) (id : DeliveryId) : Db :=
  match db.deliveries.get id with
  | none => db
  | some d => db.putDelivery id (d.recover now)

/-- `recover_stuck_sending_deliveries`: one conditional update. -/
def recoverStuckSending (db : Db) (settings : DeliverySettings) (now : Instant) : Db :=
  (stuckSending db settings now).foldl (fun db id => db.recoverOne now id) db

inductive RepairError
  | permissionDenied
  | reasonRequired
  | targetNotFound (id : DeliveryId)
  | notStuckSending (current : DeliveryStatus)
  deriving DecidableEq

def NotificationDelivery.forceFail (d : NotificationDelivery) (now : Instant) (reason : Text) :
    NotificationDelivery :=
  { d with
    status := .failed
    lastError := some ("forced:".toList ++ reason)
    updatedAt := now }

def forceFailDelivery (db : Db) (actor : Actor) (id : DeliveryId) (now : Instant) (reason : Text) :
    Except RepairError Db := do
  ensure (isAdmin actor.role = true) .permissionDenied
  ensure (strip reason ≠ []) .reasonRequired
  let d ← orRefuse (.targetNotFound id) (db.deliveries.get id)
  ensure (d.status = .sending) (.notStuckSending d.status)
  return db.putDelivery id (d.forceFail now reason)

end Recovery

section Facts

variable {db db' : Db} {settings : DeliverySettings} {id : DeliveryId} {now : Instant}

/-- A row that may be claimed: not terminal, not held by a live claim, and due. -/
structure NotificationDelivery.Claimable (d : NotificationDelivery) (settings : DeliverySettings)
    (now : Instant) : Prop where
  open' : d.status.terminal = false
  notLive : ¬ d.live settings now
  due : d.scheduledAt ≤ now

theorem claim_cases {x : Except SendResult Claim} (h : claim db settings id now = some (x, db')) :
    (∃ r, x = .error r ∧ db' = db) ∨
    ∃ d n u, db.deliveries.get id = some d ∧ d.Claimable settings now ∧
      x = .ok ((d.begin now).snapshot id n u) ∧ db' = db.putDelivery id (d.begin now) := by
  unfold claim at h
  split at h
  next =>
    cases h
    exact Or.inl ⟨_, rfl, rfl⟩
  next d hd =>
    split_ifs at h with hsent hfailed hlive hdue
    · cases h
      exact Or.inl ⟨_, rfl, rfl⟩
    · cases h
      exact Or.inl ⟨_, rfl, rfl⟩
    · cases h
      exact Or.inl ⟨_, rfl, rfl⟩
    · cases h
      exact Or.inl ⟨_, rfl, rfl⟩
    · split at h
      next n u _ _ =>
        cases h
        have hopen : d.status.terminal = false := by
          unfold DeliveryStatus.terminal
          split <;> simp_all
        exact Or.inr ⟨d, n, u, hd, ⟨hopen, hlive, not_lt.mp hdue⟩, rfl, rfl⟩
      next => cases h

@[simp] theorem judge_status (f : Finalization) (current : Bool) :
    (f.judge current).status = f.status := by
  unfold Finalization.judge
  split <;> rfl

theorem clearReadAt_deliveries (db : Db) (n : NotificationId) :
    (db.clearReadAt n).deliveries = db.deliveries := by
  unfold Db.clearReadAt
  split <;> rfl

/-- The second transaction writes one row, and only one that is SENDING. -/
theorem finalize_cases (db : Db) (id : DeliveryId) (now : Instant) (f : Finalization)
    (current : Bool) :
    (finalize db id now f current).2 = db ∨
    ∃ d, db.deliveries.get id = some d ∧ d.status = .sending ∧
      (finalize db id now f current).2.deliveries =
        db.deliveries.put id (d.settle now (f.judge current)) := by
  unfold finalize
  split
  next => exact Or.inl rfl
  next d hd =>
    split_ifs with hsending _ _ <;> try exact Or.inl rfl
    refine Or.inr ⟨d, hd, hsending, ?_⟩
    change (ite _ _ _ : Db).deliveries = _
    split
    next => rw [clearReadAt_deliveries]; rfl
    next => rfl

theorem finalize_of_sending {d : NotificationDelivery} (hd : db.deliveries.get id = some d)
    (hsending : d.status = .sending) (f : Finalization) (current : Bool) :
    (finalize db id now f current).2.deliveries.get id =
      some (d.settle now (f.judge current)) := by
  unfold finalize
  simp only [hd, hsending, if_true]
  split
  next => rw [clearReadAt_deliveries]; exact Table.get_put_self ..
  next => exact Table.get_put_self ..

theorem get_recoverOne (db : Db) (now : Instant) (i j : DeliveryId) :
    (db.recoverOne now i).deliveries.get j =
      if j = i then (db.deliveries.get j).map (·.recover now) else db.deliveries.get j := by
  unfold Db.recoverOne
  by_cases hj : j = i
  · subst hj
    cases hget : db.deliveries.get j with
    | none => simp [hget]
    | some d => simp [Db.putDelivery]
  · rw [if_neg hj]
    split
    next => rfl
    next => exact Table.get_put_of_ne _ _ hj

theorem get_foldl_recover (ids : List DeliveryId) (db : Db) (now : Instant) (j : DeliveryId) :
    (ids.foldl (fun db id => db.recoverOne now id) db).deliveries.get j =
      if j ∈ ids then (db.deliveries.get j).map (·.recover now) else db.deliveries.get j := by
  induction ids generalizing db with
  | nil => simp
  | cons i ids ih =>
    rw [List.foldl_cons, ih, get_recoverOne]
    by_cases hj : j = i
    · subst hj
      have htwice : (NotificationDelivery.recover · now) ∘ (NotificationDelivery.recover · now) =
          (NotificationDelivery.recover · now) := rfl
      simp only [if_true, List.mem_cons, true_or, Option.map_map, htwice, ite_self]
    · simp [hj]

theorem stuck_of_mem (h : id ∈ stuckSending db settings now) :
    ∃ d, db.deliveries.get id = some d ∧ d.stuck settings now := by
  obtain ⟨⟨i, d⟩, hmem, rfl⟩ := List.mem_map.mp h
  exact ⟨d, Table.mem_scan.mp (List.mem_of_mem_take hmem)⟩

/-- The monitor rewrites the rows that it has listed and touches no other. -/
theorem recoverStuckSending_get (db : Db) (settings : DeliverySettings) (now : Instant)
    (id : DeliveryId) :
    (recoverStuckSending db settings now).deliveries.get id = db.deliveries.get id ∨
    ∃ d, db.deliveries.get id = some d ∧ id ∈ stuckSending db settings now ∧
      (recoverStuckSending db settings now).deliveries.get id = some (d.recover now) := by
  unfold recoverStuckSending
  rw [get_foldl_recover]
  split
  next hmem =>
    obtain ⟨d, hd, _⟩ := stuck_of_mem hmem
    exact Or.inr ⟨d, hd, hmem, by rw [hd]; rfl⟩
  next => exact Or.inl rfl

theorem forceFailDelivery_ok {actor : Actor} {reason : Text}
    (h : forceFailDelivery db actor id now reason = .ok db') :
    ∃ d, db.deliveries.get id = some d ∧ d.status = .sending ∧
      db' = db.putDelivery id (d.forceFail now reason) := by
  unfold forceFailDelivery at h
  simp only [ensure_bind_ok, orRefuse_bind_ok] at h
  obtain ⟨_, _, d, hd, hsending, h⟩ := h
  cases h
  exact ⟨d, hd, hsending, rfl⟩

end Facts

end CampusQuest.Notifications
