import CampusQuest.DeliveryService
import CampusQuest.Runs

/-!
Any number of sends, the recovery monitor and the operator's repair act on the deliveries in
any order. A send may stop for ever after each of its transactions, its provider may take
any time and answer anything, and clocks need not agree. `requests` remembers the provider
calls with the attempt that each was made under; no service reads it.
-/

namespace CampusQuest.Notifications

open Tables Runs System
open Lifecycle (ClaimStatus)

abbrev CallId := ℕ

inductive Phase
  | claimed
  | resolved (f : Finalization)
  | calling
  | replied (r : Reply)
  deriving DecidableEq

/-- A send between its two transactions, with the instant it read at its start. -/
structure Sending where
  claim : Claim
  now : Instant
  phase : Phase
  deriving DecidableEq

structure LoggedRequest where
  deliveryId : DeliveryId
  attempt : ℕ
  request : ProviderRequest
  deriving DecidableEq

structure World where
  db : Db
  sends : Table CallId Sending
  requests : List LoggedRequest

inductive Act
  | setUser (id : UserId) (user : User)
  | notify (id : NotificationId) (notification : Notification)
  | register (id : DeliveryId) (notificationId : NotificationId) (userId : UserId)
      (eventKey : EventKey) (channel : NotificationChannel) (scheduledAt now : Instant)
  | claim (k : CallId) (id : DeliveryId) (now : Instant)
  | dispatch (k : CallId) (claimStatus : ClaimId → Option ClaimStatus)
  | reply (k : CallId) (r : Reply)
  | finalize (k : CallId) (current : Bool)
  | crash (k : CallId)
  | recover (now : Instant)
  | forceFail (actor : Actor) (id : DeliveryId) (now : Instant) (reason : Text)

def Sending.finalization (s : Sending) (settings : DeliverySettings) : Option Finalization :=
  match s.phase with
  | .claimed | .calling => none
  | .resolved f => some f
  | .replied r => some (onReply settings s.claim s.now r)

def Db.register (db : Db) (id : DeliveryId) (notificationId : NotificationId) (userId : UserId)
    (eventKey : EventKey) (channel : NotificationChannel) (scheduledAt now : Instant) : Db :=
  if db.deliveries.get id ≠ none ∨ (db.deliveries.Any fun _ d =>
      d.eventKey = eventKey ∧ d.userId = userId ∧ d.channel = channel) then db
  else db.putDelivery id
    ⟨notificationId, userId, eventKey, channel, .pending, scheduledAt, 0, none, none, none, now⟩

namespace World

def setDb (w : World) (db : Db) : World := { w with db := db }

def setSend (w : World) (k : CallId) (s : Sending) : World :=
  { w with sends := w.sends.put k s }

def dropSend (w : World) (k : CallId) : World := { w with sends := w.sends.remove k }

def log (w : World) (r : LoggedRequest) : World := { w with requests := w.requests ++ [r] }

def claim (w : World) (settings : DeliverySettings) (k : CallId) (id : DeliveryId)
    (now : Instant) : World :=
  match w.sends.get k with
  | some _ => w
  | none =>
    match Notifications.claim w.db settings id now with
    | some (.ok c, db) => (w.setDb db).setSend k ⟨c, now, .claimed⟩
    | _ => w

def dispatch (w : World) (k : CallId) (claimStatus : ClaimId → Option ClaimStatus) : World :=
  match w.sends.get k with
  | none => w
  | some s =>
    if s.phase = .claimed then
      match Notifications.dispatch s.claim s.now claimStatus with
      | .error _ => w.dropSend k
      | .ok (.inl f) => w.setSend k { s with phase := .resolved f }
      | .ok (.inr r) =>
        (w.setSend k { s with phase := .calling }).log ⟨s.claim.deliveryId, s.claim.attempts, r⟩
    else w

def reply (w : World) (k : CallId) (r : Reply) : World :=
  match w.sends.get k with
  | none => w
  | some s => if s.phase = .calling then w.setSend k { s with phase := .replied r } else w

def written (w : World) (s : Sending) (f : Finalization) (current : Bool) : Db :=
  (Notifications.finalize w.db s.claim.deliveryId s.now f current).2

def finalize (w : World) (settings : DeliverySettings) (k : CallId) (current : Bool) : World :=
  match w.sends.get k with
  | none => w
  | some s =>
    match s.finalization settings with
    | none => w
    | some f => (w.setDb (w.written s f current)).dropSend k

def perform (settings : DeliverySettings) (w : World) : Act → World
  | .setUser id user => w.setDb { w.db with users := w.db.users.put id user }
  | .notify id n =>
    match w.db.notifications.get id with
    | some _ => w
    | none => w.setDb { w.db with notifications := w.db.notifications.put id n }
  | .register id n u key channel scheduledAt now =>
    w.setDb (w.db.register id n u key channel scheduledAt now)
  | .claim k id now => w.claim settings k id now
  | .dispatch k claimStatus => w.dispatch k claimStatus
  | .reply k r => w.reply k r
  | .finalize k current => w.finalize settings k current
  | .crash k => w.dropSend k
  | .recover now => w.setDb (recoverStuckSending w.db settings now)
  | .forceFail actor id now reason =>
    match forceFailDelivery w.db actor id now reason with
    | .error _ => w
    | .ok db => w.setDb db

/-- Nothing is registered and no send is under way at first. -/
structure Initial (w : World) : Prop where
  deliveries : w.db.deliveries = .empty
  sends : w.sends = .empty
  requests : w.requests = []

end World

def delivery (settings : DeliverySettings) : System World Act :=
  ofFun World.Initial (World.perform settings)

inductive Deed (settings : DeliverySettings) (w : World) : Act → World → Prop
  | idle (a : Act) : Deed settings w a w
  | outside (a : Act) (db : Db) (hdb : db.deliveries = w.db.deliveries) :
      Deed settings w a (w.setDb db)
  | registered (a : Act) (id : DeliveryId) (d : NotificationDelivery)
      (hnew : w.db.deliveries.get id = none) (hpending : d.status = .pending)
      (hattempts : d.attempts = 0) : Deed settings w a (w.setDb (w.db.putDelivery id d))
  | claimed (k : CallId) (id : DeliveryId) (now : Instant) (d : NotificationDelivery)
      (n : Notification) (u : User) (hidle : w.sends.get k = none)
      (hd : w.db.deliveries.get id = some d) (hclaimable : d.Claimable settings now) :
      Deed settings w (.claim k id now) ((w.setDb (w.db.putDelivery id (d.begin now))).setSend k
        ⟨(d.begin now).snapshot id n u, now, .claimed⟩)
  | resolved (a : Act) (k : CallId) (s : Sending) (f : Finalization)
      (hs : w.sends.get k = some s) (hphase : s.phase = .claimed) (hsent : f.status = .sent) :
      Deed settings w a (w.setSend k { s with phase := .resolved f })
  | requested (a : Act) (k : CallId) (s : Sending) (r : ProviderRequest)
      (hs : w.sends.get k = some s) (hphase : s.phase = .claimed) :
      Deed settings w a ((w.setSend k { s with phase := .calling }).log
        ⟨s.claim.deliveryId, s.claim.attempts, r⟩)
  | replied (a : Act) (k : CallId) (s : Sending) (r : Reply) (hs : w.sends.get k = some s)
      (hphase : s.phase = .calling) : Deed settings w a (w.setSend k { s with phase := .replied r })
  | finalized (k : CallId) (current : Bool) (s : Sending) (f : Finalization)
      (hs : w.sends.get k = some s) (hf : s.finalization settings = some f) :
      Deed settings w (.finalize k current) ((w.setDb (w.written s f current)).dropSend k)
  | dropped (a : Act) (k : CallId) : Deed settings w a (w.dropSend k)
  | recovered (now : Instant) :
      Deed settings w (.recover now) (w.setDb (recoverStuckSending w.db settings now))
  | failed (a : Act) (id : DeliveryId) (now : Instant) (reason : Text) (d : NotificationDelivery)
      (hd : w.db.deliveries.get id = some d) (hsending : d.status = .sending) :
      Deed settings w a (w.setDb (w.db.putDelivery id (d.forceFail now reason)))

section Inversion

variable {settings : DeliverySettings} {w : World}

/-- A send that resolves without a provider resolves as sent. -/
theorem dispatch_inl {c : Claim} {now : Instant} {claimStatus : ClaimId → Option ClaimStatus}
    {f : Finalization} (h : dispatch c now claimStatus = .ok (.inl f)) : f.status = .sent := by
  unfold dispatch at h
  obtain ⟨token, _, h⟩ := Guards.bind_ok.mp h
  cases token with
  | some token =>
    cases h
    rfl
  | none =>
    simp only at h
    split at h
    next =>
      cases h
      rfl
    next =>
      obtain ⟨r, _, h⟩ := Guards.bind_ok.mp h
      cases h

theorem claim_deed (k : CallId) (id : DeliveryId) (now : Instant) :
    Deed settings w (.claim k id now) (w.claim settings k id now) := by
  unfold World.claim
  split
  next => exact .idle _
  next hidle =>
    split
    next c db hclaim =>
      rcases claim_cases hclaim with ⟨r, hr, _⟩ | ⟨d, n, u, hd, hclaimable, hc, rfl⟩
      · cases hr
      · cases hc
        exact .claimed k id now d n u hidle hd hclaimable
    next => exact .idle _

theorem dispatch_deed (k : CallId) (claimStatus : ClaimId → Option ClaimStatus) :
    Deed settings w (.dispatch k claimStatus) (w.dispatch k claimStatus) := by
  unfold World.dispatch
  split
  next => exact .idle _
  next s hs =>
    split
    next hphase =>
      split
      next => exact .dropped _ k
      next f hf => exact .resolved _ k s f hs hphase (dispatch_inl hf)
      next r _ => exact .requested _ k s r hs hphase
    next => exact .idle _

/-- Every act is one of the listed deeds. -/
theorem perform_deed (settings : DeliverySettings) (w : World) (a : Act) :
    Deed settings w a (w.perform settings a) := by
  cases a with
  | setUser id user => exact .outside _ _ rfl
  | notify id n =>
    change Deed settings w _ (match w.db.notifications.get id with
      | some _ => w
      | none => w.setDb { w.db with notifications := w.db.notifications.put id n })
    split
    next => exact .idle _
    next => exact .outside _ _ rfl
  | register id n u key channel scheduledAt now =>
    change Deed settings w _ (w.setDb (w.db.register id n u key channel scheduledAt now))
    unfold Db.register
    split
    next => exact .outside _ _ rfl
    next hfree =>
      rw [not_or, not_not] at hfree
      exact .registered _ id _ hfree.1 rfl rfl
  | claim k id now => exact claim_deed k id now
  | dispatch k claimStatus => exact dispatch_deed k claimStatus
  | reply k r =>
    change Deed settings w _ (w.reply k r)
    unfold World.reply
    split
    next => exact .idle _
    next s hs =>
      split
      next hphase => exact .replied _ k s r hs hphase
      next => exact .idle _
  | finalize k current =>
    change Deed settings w _ (w.finalize settings k current)
    unfold World.finalize
    split
    next => exact .idle _
    next s hs =>
      split
      next => exact .idle _
      next f hf => exact .finalized k current s f hs hf
  | crash k => exact .dropped _ k
  | recover now => exact .recovered now
  | forceFail actor id now reason =>
    change Deed settings w _ (match forceFailDelivery w.db actor id now reason with
      | .error _ => w
      | .ok db => w.setDb db)
    split
    next => exact .idle _
    next db hok =>
      obtain ⟨d, hd, hsending, rfl⟩ := forceFailDelivery_ok hok
      exact .failed _ id now reason d hd hsending

end Inversion

end CampusQuest.Notifications
