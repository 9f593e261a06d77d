import CampusQuest.DeliveryOwnership
import CampusQuest.FirstLock
import CampusQuest.NotificationPort

/-!
The deadline reminders of the claims. The lifecycle records its events in the transactions that
cause them: a claim plans its reminders, and a failed validation plans them anew. The port keeps
one delivery for each key, user and channel; the delivery service sends what is due. One clock is
read by all of them, and a transaction whose event cannot be recorded is rolled back.
-/

namespace CampusQuest.Notifications

open Tables Runs System Guards
open Lifecycle (ClaimStatus AssignmentClaim Op)

section Fresh

def freshId {ρ : Type} (t : Table ℕ ρ) : ℕ := t.keys.sup id + 1

theorem get_freshId {ρ : Type} (t : Table ℕ ρ) : t.get (freshId t) = none := by
  unfold Table.get
  rw [Finmap.lookup_eq_none]
  intro hmem
  have hle : freshId t ≤ t.keys.sup id := Finset.le_sup (f := id) (Finmap.mem_keys.mpr hmem)
  unfold freshId at hle
  omega

end Fresh

section Recording

/-- The part of an event key behind `claim:<uuid>:`. -/
def keySuffix (key : KeyText) : Text := key.1.drop 43

theorem keySuffix_eq {key : KeyText} {id : Uuid} {suffix : Text}
    (h : key.1 = claimKey id suffix) : keySuffix key = suffix := by
  unfold keySuffix
  rw [h]
  have hlength : ("claim:".toList ++ id.1 ++ [':']).length = 43 := by
    rw [List.length_append, List.length_append, id.2.1]
    rfl
  have hsplit : claimKey id suffix = ("claim:".toList ++ id.1 ++ [':']) ++ suffix := by
    unfold claimKey
    simp
  rw [hsplit, ← hlength, List.drop_left]

abbrev Render := NotificationEventType → NotificationChannel → Text × Text

def World.Has (w : World) (key : EventKey) (userId : UserId) (channel : NotificationChannel) :
    Prop :=
  w.db.deliveries.Any fun _ d => d.eventKey = key ∧ d.userId = userId ∧ d.channel = channel

instance (w : World) (key : EventKey) (userId : UserId) (channel : NotificationChannel) :
    Decidable (w.Has key userId channel) :=
  inferInstanceAs (Decidable (w.db.deliveries.Any _))

variable (settings : DeliverySettings)

/-- The insert of one delivery, with the notification row that freezes its text. On a conflict
nothing is inserted. -/
def World.recordDelivery (w : World) (key : EventKey) (type : NotificationEventType)
    (userId : UserId) (scheduledAt now : Instant) (text : Text × Text)
    (channel : NotificationChannel) : World :=
  if w.Has key userId channel then w
  else
    (w.perform settings (.notify (freshId w.db.notifications) ⟨type, text.1, text.2, none⟩)).perform
      settings (.register (freshId w.db.deliveries) (freshId w.db.notifications) userId key channel
        scheduledAt now)

def World.recordIntent (render : Render) (now : Instant) (w : World)
    (entry : EventKey × RecordIntent) : World :=
  entry.2.channels.foldl (fun w channel =>
    w.recordDelivery settings entry.1 entry.2.eventType entry.2.userId entry.2.scheduledAt now
      (render entry.2.eventType channel) channel) w

def World.recordIntents (render : Render) (now : Instant) (w : World)
    (entries : List (EventKey × RecordIntent)) : World :=
  entries.foldl (World.recordIntent settings render now) w

end Recording

structure Campus where
  life : Lifecycle.State
  world : World

inductive Recorded
  | claimCreated (id : ClaimId)
  | validationFailed (submission : SubmissionId) (id : ClaimId)

def Recorded.claimId : Recorded → ClaimId
  | .claimCreated id => id
  | .validationFailed _ id => id

/-- A step of the delivery service, of the recovery monitor or of an operator, at the time of the
clock. -/
inductive Attempt
  | claim (k : CallId) (id : DeliveryId)
  | dispatch (k : CallId)
  | reply (k : CallId) (r : Reply)
  | finalize (k : CallId) (current : Bool)
  | crash (k : CallId)
  | recover
  | forceFail (actor : Actor) (id : DeliveryId) (reason : Text)

inductive Move
  | lifecycle (op : Op) (render : Render)
  | message (key : EventKey) (intent : RecordIntent) (render : Render)
  | attempt (a : Attempt)

def EventKey.reminder : EventKey → Bool
  | .claim _ rest => rest ∈ reminderSpecs.map fun spec => spec.2.1
  | _ => false

def failureKey (id : Uuid) : KeyText :=
  ⟨"submission:".toList ++ id.1 ++ ":validation_failed".toList, by
    have hwords : "submission:".toList.length = 11 ∧ ":validation_failed".toList.length = 18 ∧
        nul ∉ "submission:".toList ∧ nul ∉ ":validation_failed".toList := by decide
    obtain ⟨hbefore, hbehind, hleft, hright⟩ := hwords
    constructor
    · rw [List.length_append, List.length_append, hbefore, hbehind, id.2.1]
      decide
    · simp only [List.mem_append, not_or]
      exact ⟨⟨hleft, id.2.2⟩, hright⟩⟩

/-- What does not change: the settings of the delivery service, the spelling of the identifiers
and the notification columns of the tasks. -/
structure Site where
  settings : DeliverySettings
  claimUuid : ClaimId → Uuid
  submissionUuid : SubmissionId → Uuid
  policy : TaskId → TaskNotificationPolicy

namespace Campus

variable (site : Site)

def recorded (c : Campus) : Op → Option Recorded
  | .claim user task id choice =>
    if c.life.db.claims.get id = none ∧
        (c.life.apply (.claim user task id choice)).db.claims.get id ≠ none then
      some (.claimCreated id)
    else none
  | .finishValidation run report _ =>
    if c.life.unfinished run = true ∧ report.verdict = .validationFailed then
      (c.life.db.runs.get run).bind fun row => (c.life.db.submissions.get row.submissionId).map
        fun submission => .validationFailed row.submissionId submission.claimId
    else none
  | _ => none

/-- `_deadline_planning_intents`, under the keys that the delivery service reads back. -/
def planned (user : User) (id : ClaimId) (claim : AssignmentClaim) (now : Instant) :
    Except RecordError (List (EventKey × RecordIntent)) := do
  let intents ← scheduleClaimDeadlines user claim.userId (site.claimUuid id) claim.deadlineAt now
    (site.policy claim.taskId)
  return intents.map fun intent => (.claim id (keySuffix intent.eventKey), intent)

/-- `build_record_intents`: a failed validation is a message of its own, and plans anew. -/
def entries (user : User) (claim : AssignmentClaim) (now : Instant) :
    Recorded → Except RecordError (List (EventKey × RecordIntent))
  | .claimCreated id => planned site user id claim now
  | .validationFailed submission id => do
    let channels ← eligibleChannels user (some (site.policy claim.taskId))
      .submissionValidationFailed
    let plans ← planned site user id claim now
    let key := failureKey (site.submissionUuid submission)
    return (.other key.1, ⟨key, .submissionValidationFailed, claim.userId, now, channels⟩) :: plans

def record (render : Render) (world : World) (life : Lifecycle.State) (event : Recorded) :
    Except RecordError World :=
  match life.db.claims.get event.claimId with
  | none => .ok world
  | some claim => do
    let user ← orRefuse (.missingUser claim.userId) (world.db.users.get claim.userId)
    let entries ← entries site user claim life.now event
    return world.recordIntents site.settings render life.now entries

/-- A step of the delivery service on the tables of now. -/
def act (c : Campus) : Attempt → Act
  | .claim k id => .claim k id c.life.now
  | .dispatch k => .dispatch k fun id => (c.life.db.claims.get id).map (·.status)
  | .reply k r => .reply k r
  | .finalize k current => .finalize k current
  | .crash k => .crash k
  | .recover => .recover c.life.now
  | .forceFail actor id reason => .forceFail actor id c.life.now reason

def perform (c : Campus) : Move → Campus
  | .lifecycle op render =>
    match c.recorded op with
    | none => { c with life := c.life.apply op }
    | some event =>
      match record site render c.world (c.life.apply op) event with
      | .ok world => ⟨c.life.apply op, world⟩
      | .error _ => c
  | .message key intent render =>
    if key.reminder = true then c
    else { c with world := c.world.recordIntent site.settings render c.life.now (key, intent) }
  | .attempt a => { c with world := c.world.perform site.settings (c.act a) }

/-- No claim, no delivery and no send; any users, tasks and assignments. -/
structure Initial (c : Campus) : Prop where
  life : Lifecycle.Initial c.life
  world : c.world.Initial

end Campus

def campus (site : Site) : System Campus Move := ofFun Campus.Initial (Campus.perform site)

/-! ### What a recording leaves -/

/-- No two deliveries share their key, user and channel. -/
def World.Unique (w : World) : Prop :=
  ∀ i j d e, w.db.deliveries.get i = some d → w.db.deliveries.get j = some e →
    d.eventKey = e.eventKey → d.userId = e.userId → d.channel = e.channel → i = j

/-- A recording adds pending rows with a property, each with a notification of its type, and
leaves everything else. -/
structure Grown (settings : DeliverySettings)
    (P : NotificationDelivery → NotificationEventType → Prop) (w w' : World) : Prop where
  reach : (delivery settings).Reach w → (delivery settings).Reach w'
  users : w'.db.users = w.db.users
  sends : w'.sends = w.sends
  kept : ∀ i d, w.db.deliveries.get i = some d → w'.db.deliveries.get i = some d
  notes : ∀ n x, w.db.notifications.get n = some x → w'.db.notifications.get n = some x
  rows : ∀ i d, w'.db.deliveries.get i = some d → w.db.deliveries.get i = some d ∨
    d.status = .pending ∧ d.attempts = 0 ∧
      ∃ n, w'.db.notifications.get d.notificationId = some n ∧ P d n.eventType
  unique : w.Unique → w'.Unique

section Growth

variable {settings : DeliverySettings} {P Q : NotificationDelivery → NotificationEventType → Prop}
  {w w' w'' : World}

theorem Grown.refl (w : World) : Grown settings P w w :=
  ⟨id, rfl, rfl, fun _ _ h => h, fun _ _ h => h, fun _ _ h => Or.inl h, id⟩

theorem Grown.trans (h : Grown settings P w w') (h' : Grown settings P w' w'') :
    Grown settings P w w'' where
  reach hw := h'.reach (h.reach hw)
  users := h'.users.trans h.users
  sends := h'.sends.trans h.sends
  kept i d hd := h'.kept i d (h.kept i d hd)
  notes n x hn := h'.notes n x (h.notes n x hn)
  rows i d hd := by
    rcases h'.rows i d hd with hold | hnew
    · rcases h.rows i d hold with holder | ⟨hpending, hattempts, n, hn, hP⟩
      · exact Or.inl holder
      · exact Or.inr ⟨hpending, hattempts, n, h'.notes _ n hn, hP⟩
    · exact Or.inr hnew
  unique hw := h'.unique (h.unique hw)

theorem Grown.mono (h : Grown settings P w w') (hPQ : ∀ d t, P d t → Q d t) :
    Grown settings Q w w' where
  reach := h.reach
  users := h.users
  sends := h.sends
  kept := h.kept
  notes := h.notes
  rows i d hd := by
    rcases h.rows i d hd with hold | ⟨hpending, hattempts, n, hn, hP⟩
    · exact Or.inl hold
    · exact Or.inr ⟨hpending, hattempts, n, hn, hPQ d n.eventType hP⟩
  unique := h.unique

theorem Grown.has (h : Grown settings P w w') {key : EventKey} {userId : UserId}
    {channel : NotificationChannel} (hhas : w.Has key userId channel) :
    w'.Has key userId channel := by
  obtain ⟨i, d, hd, hkey⟩ := hhas
  exact ⟨i, d, h.kept i d hd, hkey⟩

/-- What a fold of recordings leaves, when each of them has a property. -/
theorem grown_foldl {α : Type} {f : World → α → World} {l : List α}
    (h : ∀ w, ∀ a ∈ l, Grown settings P w (f w a)) (w : World) :
    Grown settings P w (l.foldl f w) := by
  induction l generalizing w with
  | nil => exact .refl w
  | cons a l ih =>
    exact (h w a List.mem_cons_self).trans
      (ih (fun w b hb => h w b (List.mem_cons_of_mem _ hb)) (f w a))

/-- What one recording of a fold leaves is there at the end. -/
theorem has_foldl {α : Type} {f : World → α → World} {l : List α} {a : α} {key : EventKey}
    {userId : UserId} {channel : NotificationChannel}
    (h : ∀ w, ∀ b ∈ l, Grown settings P w (f w b)) (ha : a ∈ l)
    (hhas : ∀ w, (f w a).Has key userId channel) (w : World) :
    (l.foldl f w).Has key userId channel := by
  obtain ⟨before, after, rfl⟩ := List.append_of_mem ha
  rw [List.foldl_append, List.foldl_cons]
  refine (grown_foldl (fun w b hb => h w b ?_) _).has (hhas _)
  exact List.mem_append_right _ (List.mem_cons_of_mem _ hb)

theorem recordDelivery_grown (w : World) (key : EventKey) (type : NotificationEventType)
    (userId : UserId) (scheduledAt now : Instant) (text : Text × Text)
    (channel : NotificationChannel) :
    Grown settings (fun d t => d.eventKey = key ∧ d.userId = userId ∧ d.channel = channel ∧
        d.scheduledAt = scheduledAt ∧ t = type) w
      (w.recordDelivery settings key type userId scheduledAt now text channel) ∧
    (w.recordDelivery settings key type userId scheduledAt now text channel).Has key userId
      channel := by
  unfold World.recordDelivery
  by_cases hhas : w.Has key userId channel
  · rw [if_pos hhas]
    exact ⟨.refl w, hhas⟩
  · rw [if_neg hhas]
    -- The two inserts, under identifiers that are free.
    have hnote := get_freshId w.db.notifications
    have hrow := get_freshId w.db.deliveries
    generalize hn : freshId w.db.notifications = n at hnote
    generalize hi : freshId w.db.deliveries = i at hrow
    let row : NotificationDelivery :=
      ⟨n, userId, key, channel, .pending, scheduledAt, 0, none, none, none, now⟩
    let first := w.perform settings (.notify n ⟨type, text.1, text.2, none⟩)
    have hfirst : first = w.setDb { w.db with
        notifications := w.db.notifications.put n ⟨type, text.1, text.2, none⟩ } := by
      change w.perform settings (.notify n _) = _
      unfold World.perform
      dsimp only
      rw [hnote]
    let second := first.perform settings (.register i n userId key channel scheduledAt now)
    have hsecond : second = first.setDb (first.db.putDelivery i row) := by
      change first.setDb (first.db.register i n userId key channel scheduledAt now) = _
      unfold Db.register
      rw [if_neg]
      rw [hfirst]
      rintro (htaken | hkey)
      · exact htaken hrow
      · exact hhas hkey
    have hrows : second.db.deliveries = w.db.deliveries.put i row := by
      rw [hsecond, hfirst]
      rfl
    have hnotes : second.db.notifications =
        w.db.notifications.put n ⟨type, text.1, text.2, none⟩ := by
      rw [hsecond, hfirst]
      rfl
    have hkept : ∀ j d, w.db.deliveries.get j = some d → second.db.deliveries.get j = some d := by
      intro j d hd
      rw [hrows]
      exact Table.get_put_of_fresh hrow hd
    refine ⟨⟨fun hw => ?_, ?_, ?_, hkept, fun m x hm => ?_, fun j d hd => ?_, ?_⟩, ?_⟩
    · have hmiddle : (delivery settings).Reach first := .step hw rfl
      exact .step hmiddle rfl
    · change second.db.users = _
      rw [hsecond, hfirst]
      rfl
    · change second.sends = _
      rw [hsecond, hfirst]
      rfl
    · change second.db.notifications.get m = some x
      rw [hnotes]
      exact Table.get_put_of_fresh hnote hm
    · change second.db.deliveries.get j = some d at hd
      rw [hrows] at hd
      rcases Table.get_put_eq_some hd with ⟨_, rfl⟩ | ⟨_, hold⟩
      · refine Or.inr ⟨rfl, rfl, ⟨type, text.1, text.2, none⟩, ?_, rfl, rfl, rfl, rfl, rfl⟩
        change second.db.notifications.get n = _
        rw [hnotes]
        exact Table.get_put_self _ _ _
      · exact Or.inl hold
    · intro hunique j j' d e hd he hkey huser hchannel
      change second.db.deliveries.get j = some d at hd
      change second.db.deliveries.get j' = some e at he
      rw [hrows] at hd he
      rcases Table.get_put_eq_some hd with ⟨rfl, rfl⟩ | ⟨_, hold⟩
      · rcases Table.get_put_eq_some he with ⟨rfl, rfl⟩ | ⟨_, hold'⟩
        · rfl
        · exact (hhas ⟨j', e, hold', hkey.symm, huser.symm, hchannel.symm⟩).elim
      · rcases Table.get_put_eq_some he with ⟨rfl, rfl⟩ | ⟨_, hold'⟩
        · exact (hhas ⟨j, d, hold, hkey, huser, hchannel⟩).elim
        · exact hunique j j' d e hold hold' hkey huser hchannel
    · refine ⟨i, row, ?_, rfl, rfl, rfl⟩
      change second.db.deliveries.get i = some row
      rw [hrows]
      exact Table.get_put_self _ _ _

def Planned (entry : EventKey × RecordIntent) (d : NotificationDelivery)
    (t : NotificationEventType) : Prop :=
  d.eventKey = entry.1 ∧ d.userId = entry.2.userId ∧ d.channel ∈ entry.2.channels ∧
    d.scheduledAt = entry.2.scheduledAt ∧ t = entry.2.eventType

theorem recordIntent_grown (render : Render) (now : Instant) (entry : EventKey × RecordIntent)
    (w : World) :
    Grown settings (Planned entry) w (w.recordIntent settings render now entry) ∧
      ∀ channel ∈ entry.2.channels,
        (w.recordIntent settings render now entry).Has entry.1 entry.2.userId channel := by
  have hgrown : ∀ (w : World), ∀ channel ∈ entry.2.channels, Grown settings (Planned entry) w
      (w.recordDelivery settings entry.1 entry.2.eventType entry.2.userId entry.2.scheduledAt now
        (render entry.2.eventType channel) channel) := by
    intro w channel hchannel
    refine (recordDelivery_grown w _ _ _ _ _ _ channel).1.mono ?_
    rintro d t ⟨hkey, huser, rfl, hscheduled, htype⟩
    exact ⟨hkey, huser, hchannel, hscheduled, htype⟩
  unfold World.recordIntent
  refine ⟨grown_foldl hgrown w, fun channel hchannel => ?_⟩
  exact has_foldl hgrown hchannel (fun w => (recordDelivery_grown w _ _ _ _ _ _ channel).2) w

theorem recordIntents_grown (render : Render) (now : Instant)
    (entries : List (EventKey × RecordIntent)) (w : World) :
    Grown settings (fun d t => ∃ entry ∈ entries, Planned entry d t) w
        (w.recordIntents settings render now entries) ∧
      ∀ entry ∈ entries, ∀ channel ∈ entry.2.channels,
        (w.recordIntents settings render now entries).Has entry.1 entry.2.userId channel := by
  have hgrown : ∀ (w : World), ∀ entry ∈ entries,
      Grown settings (fun d t => ∃ entry ∈ entries, Planned entry d t) w
        (w.recordIntent settings render now entry) := by
    intro w entry hentry
    exact (recordIntent_grown render now entry w).1.mono fun d t hplanned =>
      ⟨entry, hentry, hplanned⟩
  unfold World.recordIntents
  refine ⟨grown_foldl hgrown w, fun entry hentry channel hchannel => ?_⟩
  exact has_foldl hgrown hentry
    (fun w => (recordIntent_grown render now entry w).2 channel hchannel) w

end Growth

/-! ### What is planned -/

section Planning

variable {site : Site} {user : User} {id : ClaimId} {claim : AssignmentClaim} {now : Instant}

/-- The answers of a list of calls that all succeed. -/
theorem mapM_ok {ε α β : Type} {f : α → Except ε β} {l : List α} {answers : List β}
    (h : l.mapM f = .ok answers) :
    (∀ b ∈ answers, ∃ a ∈ l, f a = .ok b) ∧ ∀ a ∈ l, ∃ b ∈ answers, f a = .ok b := by
  induction l generalizing answers with
  | nil =>
    obtain rfl : answers = [] := by
      cases h
      rfl
    exact ⟨fun b hb => (List.not_mem_nil hb).elim, fun a ha => (List.not_mem_nil ha).elim⟩
  | cons a l ih =>
    rw [List.mapM_cons] at h
    obtain ⟨b, hb, h⟩ := bind_ok.mp h
    obtain ⟨rest, hrest, h⟩ := bind_ok.mp h
    cases h
    obtain ⟨hfrom, hto⟩ := ih hrest
    constructor
    · intro b' hb'
      rcases List.mem_cons.mp hb' with rfl | hb'
      · exact ⟨a, List.mem_cons_self, hb⟩
      · obtain ⟨a', ha', hf⟩ := hfrom b' hb'
        exact ⟨a', List.mem_cons_of_mem _ ha', hf⟩
    · intro a' ha'
      rcases List.mem_cons.mp ha' with rfl | ha'
      · exact ⟨b, List.mem_cons_self, hb⟩
      · obtain ⟨b', hb', hf⟩ := hto a' ha'
        exact ⟨b', List.mem_cons_of_mem _ hb', hf⟩

structure Plans (site : Site) (user : User) (id : ClaimId) (claim : AssignmentClaim)
    (now : Instant) (spec : NotificationEventType × Text × Duration)
    (entry : EventKey × RecordIntent) : Prop where
  key : entry.1 = .claim id spec.2.1
  type : entry.2.eventType = spec.1
  userId : entry.2.userId = claim.userId
  due : entry.2.scheduledAt = claim.deadlineAt - spec.2.2
  ahead : now ≤ claim.deadlineAt - spec.2.2
  channels : eligibleChannels user (some (site.policy claim.taskId)) spec.1 = .ok entry.2.channels

/-- A planning plans the reminders whose instant has not passed, on the channels that are
eligible. -/
theorem planned_ok {entries : List (EventKey × RecordIntent)}
    (h : Campus.planned site user id claim now = .ok entries) :
    (∀ entry ∈ entries, ∃ spec ∈ reminderSpecs, Plans site user id claim now spec entry) ∧
      ∀ spec ∈ reminderSpecs, now ≤ claim.deadlineAt - spec.2.2 → ∀ channels,
        eligibleChannels user (some (site.policy claim.taskId)) spec.1 = .ok channels →
          channels ≠ [] → ∃ entry ∈ entries, Plans site user id claim now spec entry := by
  unfold Campus.planned at h
  obtain ⟨intents, hintents, h⟩ := bind_ok.mp h
  cases h
  unfold scheduleClaimDeadlines at hintents
  obtain ⟨plans, hplans, h⟩ := bind_ok.mp hintents
  cases h
  obtain ⟨hfrom, hto⟩ := mapM_ok hplans
  have hplan : ∀ spec intent, planReminder user claim.userId (site.claimUuid id) claim.deadlineAt
      now (site.policy claim.taskId) spec = .ok (some intent) →
        Plans site user id claim now spec.1
          (.claim id (keySuffix intent.eventKey), intent) := by
    intro spec intent hintent
    unfold planReminder at hintent
    split at hintent
    next => cases hintent
    next hahead =>
      obtain ⟨channels, hchannels, hintent⟩ := bind_ok.mp hintent
      split at hintent
      next => cases hintent
      next =>
        cases hintent
        have hsuffix : ∀ h, keySuffix ⟨claimKey (site.claimUuid id) spec.1.2.1, h⟩ = spec.1.2.1 :=
          fun h => keySuffix_eq rfl
        exact ⟨by rw [hsuffix], rfl, rfl, rfl, not_lt.mp hahead, hchannels⟩
  constructor
  · intro entry hentry
    obtain ⟨intent, hintent, rfl⟩ := List.mem_map.mp hentry
    have hsome : some intent ∈ plans := List.reduceOption_mem_iff.mp hintent
    obtain ⟨spec, _, hspec⟩ := hfrom _ hsome
    exact ⟨spec.1, spec.2, hplan spec intent hspec⟩
  · intro spec hspec hahead channels hchannels hne
    obtain ⟨plan, hmem, hanswer⟩ := hto ⟨spec, hspec⟩ (List.mem_attach _ _)
    have hmade := hanswer
    unfold planReminder at hmade
    rw [if_neg (not_lt.mpr hahead), hchannels] at hmade
    obtain ⟨channels', hsame, hmade⟩ := bind_ok.mp hmade
    cases hsame
    rw [if_neg hne] at hmade
    cases hmade
    exact ⟨_, List.mem_map.mpr ⟨_, List.reduceOption_mem_iff.mpr hmem, rfl⟩, hplan _ _ hanswer⟩

end Planning

end CampusQuest.Notifications
