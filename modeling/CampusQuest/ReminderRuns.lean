import CampusQuest.Reminders

/-!
The reminders over whole runs. A row of a reminder was planned by its claim, stands at the
instant of its reminder or later, and is sent only by an attempt that found the claim
actionable. A retry moves it forward, unless the attempt has been overtaken.
-/

namespace CampusQuest.Notifications

open Tables Runs System Guards
open Lifecycle (ClaimStatus AssignmentClaim Op)

section Lifecycle

structure SameFacts (c c' : AssignmentClaim) : Prop where
  userId : c'.userId = c.userId
  taskId : c'.taskId = c.taskId
  claimedAt : c'.claimedAt = c.claimedAt
  deadlineAt : c'.deadlineAt = c.deadlineAt

theorem SameFacts.refl (c : AssignmentClaim) : SameFacts c c := ⟨rfl, rfl, rfl, rfl⟩

variable {s : Lifecycle.State} {op : Op} {k : ClaimId} {c c' : AssignmentClaim}

theorem claim_kept (op : Op) (hc : s.db.claims.get k = some c) :
    ∃ c', (s.apply op).db.claims.get k = some c' ∧ SameFacts c c' := by
  obtain ⟨c', hc', hmove⟩ := (Lifecycle.apply_effect s op).claim_move hc
  exact ⟨c', hc', hmove.sameClaim.userId, hmove.sameClaim.taskId, hmove.instants.1,
    hmove.instants.2⟩

theorem commit_now {α : Type} (s : Lifecycle.State)
    (answer : Lifecycle.Answer (α × Lifecycle.Db)) : (s.commit answer).now = s.now := by
  cases answer <;> rfl

/-- The clock does not go back. -/
theorem now_le (s : Lifecycle.State) (op : Op) : s.now ≤ (s.apply op).now := by
  cases op with
  | tick now => exact le_max_left _ _
  | account | task | collaborate | expire => exact le_rfl
  | importAssignment id task =>
    change _ ≤ (s.importAssignment id task).now
    unfold Lifecycle.State.importAssignment
    split <;> exact le_rfl
  | cleanup id hold lease =>
    change _ ≤ (s.cleanup id hold lease).now
    unfold Lifecycle.State.cleanup
    split <;> exact le_rfl
  | cleanupIntent id lease =>
    change _ ≤ (s.cleanupIntent id lease).now
    unfold Lifecycle.State.cleanupIntent
    split <;> exact le_rfl
  | points call =>
    change _ ≤ (s.callPoints call).now
    unfold Lifecycle.State.callPoints
    split <;> exact le_rfl
  | onValidationPassed id =>
    change _ ≤ (s.commitLock id (Lifecycle.onValidationPassed s.db id)).now
    unfold Lifecycle.State.commitLock
    split <;> exact le_rfl
  | finishValidation run report detected =>
    change _ ≤ (if s.unfinished run = true then
      s.commit (Lifecycle.finishValidation s.db s.now run report detected) else s).now
    split
    · exact (commit_now s _).ge
    · exact le_rfl
  | claim | abandon | createIntent | finalize | startValidation | requireRevision | invalidate |
    approve => exact (commit_now s _).ge

/-- A claim is made by a claim of an assignment, at the time of the clock. -/
theorem claim_new (hnone : s.db.claims.get k = none)
    (hc : (s.apply op).db.claims.get k = some c) :
    (∃ user task choice, op = .claim user task k choice) ∧ c.claimedAt = s.now := by
  cases (Lifecycle.apply_effect s op).claim_made hnone hc with
  | claimed user task _ choice => exact ⟨⟨user, task, choice, rfl⟩, rfl⟩

end Lifecycle

section Recording

variable {site : Site} {user : User} {id : ClaimId} {claim : AssignmentClaim} {now : Instant}
  {event : Recorded}

theorem reminder_of_spec {spec : NotificationEventType × Text × Duration}
    (h : spec ∈ reminderSpecs) : (EventKey.claim id spec.2.1).reminder = true :=
  decide_eq_true (List.mem_map.mpr ⟨spec, h, rfl⟩)

/-- The suffix of a reminder's key tells which one it is. -/
theorem spec_of_suffix {spec spec' : NotificationEventType × Text × Duration}
    (h : spec ∈ reminderSpecs) (h' : spec' ∈ reminderSpecs) (hsuffix : spec.2.1 = spec'.2.1) :
    spec = spec' := by
  simp only [reminderSpecs, List.mem_cons, List.not_mem_nil, or_false] at h h'
  rcases h with rfl | rfl <;> rcases h' with rfl | rfl
  · rfl
  · exact absurd hsuffix (by decide)
  · exact absurd hsuffix (by decide)
  · rfl

/-- The types of the two reminders. -/
theorem deadlineReminder_of_spec {spec : NotificationEventType × Text × Duration}
    (h : spec ∈ reminderSpecs) : spec.1.deadlineReminder = true := by
  simp only [reminderSpecs, List.mem_cons, List.not_mem_nil, or_false] at h
  rcases h with rfl | rfl <;> rfl

theorem entries_ok {entries : List (EventKey × RecordIntent)}
    (h : Campus.entries site user claim now event = .ok entries) :
    (∀ entry ∈ entries, entry.1.reminder = false ∨
      ∃ spec ∈ reminderSpecs, Plans site user event.claimId claim now spec entry) ∧
    ∀ spec ∈ reminderSpecs, now ≤ claim.deadlineAt - spec.2.2 → ∀ channels,
      eligibleChannels user (some (site.policy claim.taskId)) spec.1 = .ok channels →
        channels ≠ [] → ∃ entry ∈ entries, Plans site user event.claimId claim now spec entry := by
  cases event with
  | claimCreated id =>
    obtain ⟨hfrom, hto⟩ := planned_ok h
    exact ⟨fun entry hentry => Or.inr (hfrom entry hentry), hto⟩
  | validationFailed submission id =>
    unfold Campus.entries at h
    obtain ⟨channels, _, h⟩ := bind_ok.mp h
    obtain ⟨plans, hplans, h⟩ := bind_ok.mp h
    cases h
    obtain ⟨hfrom, hto⟩ := planned_ok hplans
    constructor
    · intro entry hentry
      rcases List.mem_cons.mp hentry with rfl | hentry
      · exact Or.inl rfl
      · exact Or.inr (hfrom entry hentry)
    · intro spec hspec hahead channels hchannels hne
      obtain ⟨entry, hentry, hplan⟩ := hto spec hspec hahead channels hchannels hne
      exact ⟨entry, List.mem_cons_of_mem _ hentry, hplan⟩

/-- A row that an event has recorded: none of a reminder, or one of a reminder of the claim that
is planned now. -/
def NewRow (site : Site) (world : World) (life : Lifecycle.State) (id : ClaimId)
    (d : NotificationDelivery) (t : NotificationEventType) : Prop :=
  d.eventKey.reminder = false ∨ ∃ claim user spec entry, life.db.claims.get id = some claim ∧
    world.db.users.get claim.userId = some user ∧ spec ∈ reminderSpecs ∧
      Plans site user id claim life.now spec entry ∧ Planned entry d t

theorem NewRow.reminder {world : World} {life : Lifecycle.State} {k : ClaimId}
    {spec : NotificationEventType × Text × Duration} {d : NotificationDelivery}
    {t : NotificationEventType} (h : NewRow site world life id d t) (hspec : spec ∈ reminderSpecs)
    (hkey : d.eventKey = .claim k spec.2.1) :
    ∃ claim user entry, life.db.claims.get k = some claim ∧
      world.db.users.get claim.userId = some user ∧
        Plans site user k claim life.now spec entry ∧ Planned entry d t := by
  rcases h with hother | ⟨claim, user, spec', entry, hclaim, huser, hspec', hplan, hrow⟩
  · rw [hkey, reminder_of_spec hspec] at hother
    cases hother
  · have hkeys := hkey.symm.trans (hrow.1.trans hplan.key)
    simp only [EventKey.claim.injEq] at hkeys
    obtain ⟨rfl, hsuffix⟩ := hkeys
    obtain rfl := spec_of_suffix hspec hspec' hsuffix
    exact ⟨claim, user, entry, hclaim, huser, hplan, hrow⟩

theorem record_grown {render : Render} {w w' : World} {life : Lifecycle.State}
    (h : Campus.record site render w life event = .ok w') :
    Grown site.settings (NewRow site w life event.claimId) w w' ∧
    ∀ claim user, life.db.claims.get event.claimId = some claim →
      w.db.users.get claim.userId = some user → ∀ spec ∈ reminderSpecs,
        life.now ≤ claim.deadlineAt - spec.2.2 → ∀ channels,
          eligibleChannels user (some (site.policy claim.taskId)) spec.1 = .ok channels →
            ∀ channel ∈ channels, w'.Has (.claim event.claimId spec.2.1) claim.userId channel := by
  unfold Campus.record at h
  split at h
  next hnone =>
    cases h
    refine ⟨.refl w, fun claim user hclaim => ?_⟩
    rw [hnone] at hclaim
    cases hclaim
  next claim hclaim =>
    obtain ⟨user, huser, h⟩ := orRefuse_bind_ok.mp h
    obtain ⟨entries, hentries, h⟩ := bind_ok.mp h
    cases h
    obtain ⟨hfrom, hto⟩ := entries_ok hentries
    obtain ⟨hgrown, hhas⟩ := @recordIntents_grown site.settings render life.now entries w
    constructor
    · refine hgrown.mono fun d t hplanned => ?_
      obtain ⟨entry, hentry, hrow⟩ := hplanned
      rcases hfrom entry hentry with hother | ⟨spec, hspec, hplan⟩
      · left
        rw [hrow.1]
        exact hother
      · exact Or.inr ⟨claim, user, spec, entry, hclaim, huser, hspec, hplan, hrow⟩
    · intro claim' user' hclaim' huser' spec hspec hahead channels hchannels channel hchannel
      rw [hclaim] at hclaim'
      cases hclaim'
      rw [huser] at huser'
      cases huser'
      obtain ⟨entry, hentry, hplan⟩ := hto spec hspec hahead channels hchannels
        (List.ne_nil_of_mem hchannel)
      have hsame : channels = entry.2.channels := by
        have heq := hchannels.symm.trans hplan.channels
        cases heq
        rfl
      have hrow := hhas entry hentry channel (hsame ▸ hchannel)
      rw [hplan.key, hplan.userId] at hrow
      exact hrow

end Recording

/-! ### What an attempt moves -/

section Attempts

variable {settings : DeliverySettings} {w : World}

structure SameRow (d d' : NotificationDelivery) : Prop where
  notificationId : d'.notificationId = d.notificationId
  userId : d'.userId = d.userId
  eventKey : d'.eventKey = d.eventKey
  channel : d'.channel = d.channel

theorem SameRow.refl (d : NotificationDelivery) : SameRow d d := ⟨rfl, rfl, rfl, rfl⟩

theorem RowMove.sameRow {a : Act} {id : DeliveryId} {d d' : NotificationDelivery}
    (h : RowMove settings w a id d d') : SameRow d d' := by
  cases h <;> exact ⟨rfl, rfl, rfl, rfl⟩

inductive SendMove (settings : DeliverySettings) (c : Campus) (call : CallId) :
    Attempt → Sending → Prop
  | same (a : Attempt) (s : Sending) (hs : c.world.sends.get call = some s) :
      SendMove settings c call a s
  | claimed (id : DeliveryId) (d : NotificationDelivery) (n : Notification) (u : User)
      (hd : c.world.db.deliveries.get id = some d)
      (hn : c.world.db.notifications.get d.notificationId = some n)
      (hclaimable : d.Claimable settings c.life.now)
      (hafter : (c.world.perform settings (.claim call id c.life.now)).db.deliveries.get id =
        some (d.begin c.life.now)) :
      SendMove settings c call (.claim call id)
        ⟨(d.begin c.life.now).snapshot id n u, c.life.now, .claimed⟩
  | resolved (s : Sending) (f : Finalization) (hs : c.world.sends.get call = some s)
      (hphase : s.phase = .claimed)
      (hf : dispatch s.claim s.now (fun id => (c.life.db.claims.get id).map (·.status)) =
        .ok (.inl f)) :
      SendMove settings c call (.dispatch call) { s with phase := .resolved f }
  | calling (s : Sending) (r : ProviderRequest) (hs : c.world.sends.get call = some s)
      (hphase : s.phase = .claimed)
      (hr : dispatch s.claim s.now (fun id => (c.life.db.claims.get id).map (·.status)) =
        .ok (.inr r)) :
      SendMove settings c call (.dispatch call) { s with phase := .calling }
  | replied (s : Sending) (r : Reply) (hs : c.world.sends.get call = some s)
      (hphase : s.phase = .calling) :
      SendMove settings c call (.reply call r) { s with phase := .replied r }

/-- No row is inserted, the notifications stay with their types, and the users stay. -/
structure Kept (db db' : Db) : Prop where
  users : db'.users = db.users
  none : ∀ i, db.deliveries.get i = none → db'.deliveries.get i = none
  notes : ∀ n x, db.notifications.get n = some x →
    ∃ x', db'.notifications.get n = some x' ∧ x'.eventType = x.eventType

theorem Kept.refl (db : Db) : Kept db db := ⟨rfl, fun _ h => h, fun _ x h => ⟨x, h, rfl⟩⟩

theorem Kept.trans {db db' db'' : Db} (h : Kept db db') (h' : Kept db' db'') : Kept db db'' := by
  refine ⟨h'.users.trans h.users, fun i hi => h'.none i (h.none i hi), fun n x hn => ?_⟩
  obtain ⟨x', hx', htype⟩ := h.notes n x hn
  obtain ⟨x'', hx'', htype'⟩ := h'.notes n x' hx'
  exact ⟨x'', hx'', htype'.trans htype⟩

/-- A row that is there is written. -/
theorem kept_put {db : Db} {id : DeliveryId} {d : NotificationDelivery}
    (hd : db.deliveries.get id = some d) (d' : NotificationDelivery) :
    Kept db (db.putDelivery id d') := by
  refine ⟨rfl, fun i hi => ?_, fun n x hn => ⟨x, hn, rfl⟩⟩
  change (db.deliveries.put id d').get i = none
  rw [Table.get_put, if_neg]
  · exact hi
  · rintro rfl
    rw [hd] at hi
    cases hi

/-- A claim that succeeds has found the notification that the row points at. -/
theorem claim_found {db db' : Db} {id : DeliveryId} {now : Instant} {x : Claim}
    (h : claim db settings id now = some (.ok x, db')) :
    ∃ d n u, db.deliveries.get id = some d ∧ db.notifications.get d.notificationId = some n ∧
      d.Claimable settings now ∧ x = (d.begin now).snapshot id n u ∧
        db' = db.putDelivery id (d.begin now) := by
  rcases claim_cases h with ⟨_, hx, _⟩ | ⟨d, _, _, hd, hclaimable, _, _⟩
  · cases hx
  · unfold claim at h
    rw [hd] at h
    dsimp only at h
    split_ifs at h
    · cases h
    · cases h
    · cases h
    · cases h
    · split at h
      next n u hn _ =>
        cases h
        exact ⟨d, n, u, hd, hn, hclaimable, rfl, rfl⟩
      next => cases h

theorem kept_clearReadAt (db : Db) (id : NotificationId) : Kept db (db.clearReadAt id) := by
  unfold Db.clearReadAt
  split
  next => exact .refl db
  next y hy =>
    refine ⟨rfl, fun i hi => hi, fun n x hn => ?_⟩
    by_cases hid : n = id
    · subst hid
      rw [hn] at hy
      cases hy
      exact ⟨_, Table.get_put_self _ _ _, rfl⟩
    · exact ⟨x, (Table.get_put_of_ne _ _ hid).trans hn, rfl⟩

theorem kept_finalize (db : Db) (id : DeliveryId) (now : Instant) (f : Finalization)
    (current : Bool) : Kept db (finalize db id now f current).2 := by
  unfold finalize
  dsimp only
  split
  next => exact .refl db
  next d hd =>
    split
    next =>
      dsimp only
      split
      · exact (kept_put hd _).trans (kept_clearReadAt _ _)
      · exact kept_put hd _
    next =>
      split
      · exact .refl db
      · split <;> exact .refl db

theorem kept_recover (db : Db) (now : Instant) (ids : List DeliveryId) :
    Kept db (ids.foldl (fun db id => db.recoverOne now id) db) := by
  induction ids generalizing db with
  | nil => exact .refl db
  | cons id ids ih =>
    refine Kept.trans ?_ (ih (db.recoverOne now id))
    unfold Db.recoverOne
    split
    next => exact .refl db
    next d hd => exact kept_put hd _

/-- What the sends and the tables are after an attempt. -/
theorem act_moves (c : Campus) (a : Attempt) :
    Kept c.world.db (c.world.perform settings (c.act a)).db ∧
      ∀ call s, (c.world.perform settings (c.act a)).sends.get call = some s →
        SendMove settings c call a s := by
  have hidle {w' : World} (heq : w' = c.world) : Kept c.world.db w'.db ∧
      ∀ call s, w'.sends.get call = some s → SendMove settings c call a s := by
    subst heq
    exact ⟨.refl _, fun call s hs => .same a s hs⟩
  -- A send of another call stays, and so does everything when a send is dropped.
  have hput {k call : CallId} {s s' : Sending}
      (h : (c.world.sends.put k s').get call = some s) :
      call = k ∧ s = s' ∨ SendMove settings c call a s := by
    rcases Table.get_put_eq_some h with hnew | ⟨_, hold⟩
    · exact Or.inl hnew
    · exact Or.inr (.same a s hold)
  have hdrop {k call : CallId} {s : Sending}
      (h : (c.world.sends.remove k).get call = some s) : SendMove settings c call a s := by
    rw [Table.get_remove] at h
    split at h
    · cases h
    · exact .same a s h
  cases a with
  | claim k id =>
    change Kept c.world.db (c.world.claim settings k id c.life.now).db ∧ ∀ call s,
      (c.world.claim settings k id c.life.now).sends.get call = some s → _
    have hworld : c.world.perform settings (.claim k id c.life.now) =
        c.world.claim settings k id c.life.now := rfl
    unfold World.claim at hworld ⊢
    split
    next => exact hidle rfl
    next hfree =>
      rw [hfree] at hworld
      split
      next x db hclaim =>
        obtain ⟨d, n, u, hd, hn, hclaimable, rfl, rfl⟩ := claim_found hclaim
        rw [hclaim] at hworld
        refine ⟨kept_put hd _, fun call s hs => ?_⟩
        rcases hput hs with ⟨rfl, rfl⟩ | hmove
        · refine .claimed id d n u hd hn hclaimable ?_
          rw [hworld]
          exact Table.get_put_self _ _ _
        · exact hmove
      next => exact hidle rfl
  | dispatch k =>
    change Kept c.world.db (c.world.dispatch k _).db ∧ ∀ call s,
      (c.world.dispatch k _).sends.get call = some s → _
    unfold World.dispatch
    split
    next => exact hidle rfl
    next s₀ hs₀ =>
      split
      next hphase =>
        split
        next => exact ⟨.refl _, fun call s hs => hdrop hs⟩
        next f hf =>
          refine ⟨.refl _, fun call s hs => ?_⟩
          rcases hput hs with ⟨rfl, rfl⟩ | hmove
          · exact .resolved s₀ f hs₀ hphase hf
          · exact hmove
        next r hr =>
          refine ⟨.refl _, fun call s hs => ?_⟩
          rcases hput hs with ⟨rfl, rfl⟩ | hmove
          · exact .calling s₀ r hs₀ hphase hr
          · exact hmove
      next => exact hidle rfl
  | reply k r =>
    change Kept c.world.db (c.world.reply k r).db ∧ ∀ call s,
      (c.world.reply k r).sends.get call = some s → _
    unfold World.reply
    split
    next => exact hidle rfl
    next s₀ hs₀ =>
      split
      next hphase =>
        refine ⟨.refl _, fun call s hs => ?_⟩
        rcases hput hs with ⟨rfl, rfl⟩ | hmove
        · exact .replied s₀ r hs₀ hphase
        · exact hmove
      next => exact hidle rfl
  | finalize k current =>
    change Kept c.world.db (c.world.finalize settings k current).db ∧ ∀ call s,
      (c.world.finalize settings k current).sends.get call = some s → _
    unfold World.finalize
    split
    next => exact hidle rfl
    next s₀ hs₀ =>
      split
      next => exact hidle rfl
      next f hf => exact ⟨kept_finalize _ _ _ _ _, fun call s hs => hdrop hs⟩
  | crash k => exact ⟨.refl _, fun call s hs => hdrop hs⟩
  | recover => exact ⟨kept_recover _ _ _, fun call s hs => .same _ s hs⟩
  | forceFail actor id reason =>
    unfold Campus.act World.perform
    dsimp only
    split
    next => exact hidle rfl
    next db hok =>
      obtain ⟨d, hd, _, rfl⟩ := forceFailDelivery_ok hok
      exact ⟨kept_put hd _, fun call s hs => .same _ s hs⟩

end Attempts

/-! ### What is written back -/

section Outcomes

variable {settings : DeliverySettings} {w : World}

theorem retryDelay_nonneg (n : ℕ) : 0 ≤ retryDelays.getD n 0 := by
  match n with
  | 0 => decide
  | 1 => decide
  | 2 => decide
  | n + 3 => exact le_rfl

/-- An answer of the provider settles the row, and a retry is due after the attempt. -/
theorem onReply_settles (c : Claim) (now : Instant) (r : Reply) :
    (onReply settings c now r).status ≠ .sending ∧
      ∀ due, (onReply settings c now r).retryDueAt = some due → now ≤ due := by
  have hretry (error : Text) : (retryOrFail settings c now error).status ≠ .sending ∧
      ∀ due, (retryOrFail settings c now error).retryDueAt = some due → now ≤ due := by
    unfold retryOrFail
    split
    · exact ⟨by simp, fun due hdue => (by cases hdue)⟩
    · refine ⟨by simp, fun due hdue => ?_⟩
      cases hdue
      exact le_add_of_nonneg_right (retryDelay_nonneg _)
  cases r with
  | accepted receipt => exact ⟨by simp [onReply], fun due hdue => (by cases hdue)⟩
  | permanent error => exact ⟨by simp [onReply], fun due hdue => (by cases hdue)⟩
  | unknownOutcome error => exact hretry _
  | temporary error => exact hretry _

/-- What is settled without a provider is sent, with no retry. -/
theorem dispatch_settles {c : Claim} {now : Instant} {claimStatus : ClaimId → Option ClaimStatus}
    {f : Finalization} (h : dispatch c now claimStatus = .ok (.inl f)) :
    f.status = .sent ∧ f.retryDueAt = none := by
  unfold dispatch at h
  obtain ⟨token, _, h⟩ := bind_ok.mp h
  cases token with
  | some token =>
    cases h
    exact ⟨rfl, rfl⟩
  | none =>
    dsimp only at h
    split at h
    next =>
      cases h
      exact ⟨rfl, rfl⟩
    next =>
      obtain ⟨r, _, h⟩ := bind_ok.mp h
      cases h

theorem finalization_cases {s : Sending} {f : Finalization}
    (h : s.finalization settings = some f) :
    s.phase = .resolved f ∨ ∃ r, s.phase = .replied r ∧ f = onReply settings s.claim s.now r := by
  unfold Sending.finalization at h
  split at h
  next => cases h
  next => cases h
  next f' hphase =>
    cases h
    exact Or.inl hphase
  next r hphase =>
    cases h
    exact Or.inr ⟨r, hphase, rfl⟩

@[simp] theorem judge_retryDueAt (f : Finalization) (current : Bool) :
    (f.judge current).retryDueAt = f.retryDueAt := by
  unfold Finalization.judge
  split <;> rfl

/-- A row gets another instant only from a retry that writes it. -/
theorem RowMove.schedule {a : Act} {id : DeliveryId} {d d' : NotificationDelivery}
    (h : RowMove settings w a id d d') : d'.scheduledAt = d.scheduledAt ∨
      ∃ k current s f due, a = .finalize k current ∧ w.sends.get k = some s ∧
        s.claim.deliveryId = id ∧ s.finalization settings = some f ∧ f.retryDueAt = some due ∧
          d.status = .sending ∧ d'.scheduledAt = due := by
  cases h with
  | same => exact Or.inl rfl
  | claimed => exact Or.inl rfl
  | recovered => exact Or.inl rfl
  | failed => exact Or.inl rfl
  | settled k current s f ha hs hid hf hsending =>
    cases hdue : f.retryDueAt with
    | none =>
      left
      change (f.judge current).retryDueAt.getD d.scheduledAt = d.scheduledAt
      rw [judge_retryDueAt, hdue]
      rfl
    | some due =>
      refine Or.inr ⟨k, current, s, f, due, ha, hs, hid, hf, hdue, hsending, ?_⟩
      change (f.judge current).retryDueAt.getD d.scheduledAt = due
      rw [judge_retryDueAt, hdue]
      rfl

end Outcomes

/-! ### The invariant -/

/-- The row of a reminder: it is for the claim's user on an eligible channel, it was planned
before the instant of the reminder, and it is due then or later. -/
structure Row (site : Site) (w : World) (claim : AssignmentClaim)
    (spec : NotificationEventType × Text × Duration) (d : NotificationDelivery) : Prop where
  userId : d.userId = claim.userId
  type : ∃ n, w.db.notifications.get d.notificationId = some n ∧ n.eventType = spec.1
  due : claim.deadlineAt - spec.2.2 ≤ d.scheduledAt
  planned : claim.claimedAt ≤ claim.deadlineAt - spec.2.2
  eligible : ∃ user channels, w.db.users.get claim.userId = some user ∧
    eligibleChannels user (some (site.policy claim.taskId)) spec.1 = .ok channels ∧
      d.channel ∈ channels

/-- A send and the row that it has claimed: while the row holds its claim, the instant is the one
that it has read. -/
structure Tracked (w : World) (s : Sending) (d : NotificationDelivery) : Prop where
  key : s.claim.eventKey = d.eventKey
  type : ∃ n, w.db.notifications.get d.notificationId = some n ∧ n.eventType = s.claim.eventType
  due : s.claim.scheduledAt ≤ s.now
  held : d.status = .sending → d.attempts = s.claim.attempts →
    d.scheduledAt = s.claim.scheduledAt
  resolved : ∀ f, s.phase = .resolved f → f.status = .sent ∧ f.retryDueAt = none

structure Reminded (site : Site) (c : Campus) : Prop where
  reach : (delivery site.settings).Reach c.world
  clock : ∀ k claim, c.life.db.claims.get k = some claim → claim.claimedAt ≤ c.life.now
  unique : c.world.Unique
  rows : ∀ i d k spec, c.world.db.deliveries.get i = some d → spec ∈ reminderSpecs →
    d.eventKey = .claim k spec.2.1 →
      ∃ claim, c.life.db.claims.get k = some claim ∧ Row site c.world claim spec d
  sends : ∀ call s, c.world.sends.get call = some s →
    ∃ d, c.world.db.deliveries.get s.claim.deliveryId = some d ∧ Tracked c.world s d
  ahead : ∀ call s k spec claim, c.world.sends.get call = some s → spec ∈ reminderSpecs →
    s.claim.eventKey = .claim k spec.2.1 → c.life.db.claims.get k = some claim →
      claim.deadlineAt - spec.2.2 ≤ s.claim.scheduledAt
  past : ∀ call s, c.world.sends.get call = some s → s.now ≤ c.life.now

section Invariant

variable {site : Site} {c : Campus}

theorem Row.move {w w' : World} {claim claim' : AssignmentClaim}
    {spec : NotificationEventType × Text × Duration} {d d' : NotificationDelivery}
    (h : Row site w claim spec d) (hfacts : SameFacts claim claim')
    (husers : w'.db.users = w.db.users)
    (hnotes : ∀ n x, w.db.notifications.get n = some x →
      ∃ x', w'.db.notifications.get n = some x' ∧ x'.eventType = x.eventType)
    (hsame : SameRow d d') (hdue : claim.deadlineAt - spec.2.2 ≤ d'.scheduledAt) :
    Row site w' claim' spec d' := by
  obtain ⟨n, hn, htype⟩ := h.type
  obtain ⟨n', hn', htype'⟩ := hnotes _ n hn
  refine ⟨?_, ⟨n', ?_, htype'.trans htype⟩, ?_, ?_, ?_⟩
  · rw [hsame.userId, hfacts.userId]
    exact h.userId
  · rw [hsame.notificationId]
    exact hn'
  · rw [hfacts.deadlineAt]
    exact hdue
  · rw [hfacts.claimedAt, hfacts.deadlineAt]
    exact h.planned
  · rw [husers, hfacts.userId, hfacts.taskId, hsame.channel]
    exact h.eligible

/-- A send that has read the row's instant, or an earlier claim's, does not go on to hold it. -/
theorem Tracked.move {settings : DeliverySettings} {w w' : World} {a : Act} {s : Sending}
    {d d' : NotificationDelivery} (h : Tracked w s d)
    (hmove : RowMove settings w a s.claim.deliveryId d d')
    (hle : s.claim.attempts ≤ d.attempts)
    (hsettled : ∀ k s f, w.sends.get k = some s → s.finalization settings = some f →
      f.status ≠ .sending)
    (hnotes : ∀ n x, w.db.notifications.get n = some x →
      ∃ x', w'.db.notifications.get n = some x' ∧ x'.eventType = x.eventType) :
    Tracked w' s d' := by
  obtain ⟨n, hn, htype⟩ := h.type
  obtain ⟨n', hn', htype'⟩ := hnotes _ n hn
  refine ⟨?_, ⟨n', ?_, htype'.trans htype⟩, h.due, ?_, h.resolved⟩
  · rw [hmove.sameRow.eventKey]
    exact h.key
  · rw [hmove.sameRow.notificationId]
    exact hn'
  · cases hmove with
    | same => exact h.held
    | claimed k now _ _ =>
      intro _ hattempts
      change d.attempts + 1 = s.claim.attempts at hattempts
      omega
    | settled k current s' f _ hs' _ hf _ =>
      intro hsending
      have hstatus : (f.judge current).status = .sending := hsending
      rw [judge_status] at hstatus
      exact absurd hstatus (hsettled k s' f hs' hf)
    | recovered => exact fun hsending => (by cases hsending)
    | failed => exact fun hsending => (by cases hsending)

theorem Reminded.settled (h : Reminded site c) (k : CallId) (s : Sending) (f : Finalization)
    (hs : c.world.sends.get k = some s) (hf : s.finalization site.settings = some f) :
    f.status ≠ .sending ∧ ∀ due, f.retryDueAt = some due → s.now ≤ due := by
  obtain ⟨d, _, htracked⟩ := h.sends k s hs
  rcases finalization_cases hf with hphase | ⟨r, _, rfl⟩
  · obtain ⟨hsent, hnone⟩ := htracked.resolved f hphase
    rw [hsent, hnone]
    exact ⟨by simp, fun due hdue => (by cases hdue)⟩
  · exact onReply_settles s.claim s.now r

/-- What the lifecycle does leaves the reminders of the claims that are there. -/
theorem Reminded.lifecycle (h : Reminded site c) (op : Op) :
    Reminded site { c with life := c.life.apply op } := by
  have hold : ∀ k claim', (c.life.apply op).db.claims.get k = some claim' →
      (∃ claim, c.life.db.claims.get k = some claim ∧ SameFacts claim claim') ∨
        c.life.db.claims.get k = none ∧ claim'.claimedAt = c.life.now := by
    intro k claim' hclaim'
    cases hclaim : c.life.db.claims.get k with
    | none => exact Or.inr ⟨rfl, (claim_new hclaim hclaim').2⟩
    | some claim =>
      obtain ⟨claim'', hclaim'', hfacts⟩ := claim_kept op hclaim
      rw [hclaim'] at hclaim''
      cases hclaim''
      exact Or.inl ⟨claim, rfl, hfacts⟩
  refine ⟨h.reach, fun k claim' hclaim' => ?_, h.unique, fun i d k spec hd hspec hkey => ?_,
    h.sends, fun call s k spec claim' hs hspec hkey hclaim' => ?_,
    fun call s hs => (h.past call s hs).trans (now_le _ op)⟩
  · rcases hold k claim' hclaim' with ⟨claim, hclaim, hfacts⟩ | ⟨_, hclaimed⟩
    · rw [hfacts.claimedAt]
      exact (h.clock k claim hclaim).trans (now_le _ op)
    · rw [hclaimed]
      exact now_le _ op
  · obtain ⟨claim, hclaim, hrow⟩ := h.rows i d k spec hd hspec hkey
    obtain ⟨claim', hclaim', hfacts⟩ := claim_kept op hclaim
    exact ⟨claim', hclaim', hrow.move hfacts rfl (fun n x hn => ⟨x, hn, rfl⟩) (.refl d) hrow.due⟩
  · rcases hold k claim' hclaim' with ⟨claim, hclaim, hfacts⟩ | ⟨hnone, _⟩
    · rw [hfacts.deadlineAt]
      exact h.ahead call s k spec claim hs hspec hkey hclaim
    · obtain ⟨d, hd, htracked⟩ := h.sends call s hs
      obtain ⟨claim, hclaim, _⟩ := h.rows _ d k spec hd hspec (htracked.key.symm.trans hkey)
      rw [hnone] at hclaim
      cases hclaim

/-- What is recorded is planned at its instant, which is ahead. -/
theorem Reminded.record (h : Reminded site c) {w' : World} {id : ClaimId}
    (hgrown : Grown site.settings (NewRow site c.world c.life id) c.world w') :
    Reminded site { c with world := w' } := by
  have hnotes : ∀ n x, c.world.db.notifications.get n = some x →
      ∃ x', w'.db.notifications.get n = some x' ∧ x'.eventType = x.eventType :=
    fun n x hn => ⟨x, hgrown.notes n x hn, rfl⟩
  refine ⟨hgrown.reach h.reach, h.clock, hgrown.unique h.unique,
    fun i d k spec hd hspec hkey => ?_, fun call s hs => ?_, fun call s k spec claim hs => ?_,
    fun call s hs => ?_⟩
  · rcases hgrown.rows i d hd with hold | ⟨_, _, n, hn, hnew⟩
    · obtain ⟨claim, hclaim, hrow⟩ := h.rows i d k spec hold hspec hkey
      exact ⟨claim, hclaim, hrow.move (.refl claim) hgrown.users hnotes (.refl d) hrow.due⟩
    · obtain ⟨claim, user, entry, hclaim, huser, hplan, hrow⟩ := hnew.reminder hspec hkey
      refine ⟨claim, hclaim, hrow.2.1.trans hplan.userId, ⟨n, hn, hrow.2.2.2.2.trans hplan.type⟩,
        ?_, (h.clock k claim hclaim).trans hplan.ahead, user, entry.2.channels, ?_,
        hplan.channels, hrow.2.2.1⟩
      · rw [hrow.2.2.2.1, hplan.due]
      · change w'.db.users.get claim.userId = some user
        rw [hgrown.users]
        exact huser
  · change w'.sends.get call = some s at hs
    rw [hgrown.sends] at hs
    obtain ⟨d, hd, htracked⟩ := h.sends call s hs
    obtain ⟨n, hn, htype⟩ := htracked.type
    exact ⟨d, hgrown.kept _ d hd, htracked.key, ⟨n, hgrown.notes _ n hn, htype⟩, htracked.due,
      htracked.held, htracked.resolved⟩
  · change w'.sends.get call = some s at hs
    rw [hgrown.sends] at hs
    exact h.ahead call s k spec claim hs
  · change w'.sends.get call = some s at hs
    rw [hgrown.sends] at hs
    exact h.past call s hs

/-- A row moves forward, unless it is written by an attempt that has been overtaken. -/
theorem Reminded.forward (h : Reminded site c) {a : Act} {i : DeliveryId}
    {d d' : NotificationDelivery} (hd : c.world.db.deliveries.get i = some d)
    (hmove : RowMove site.settings c.world a i d d') :
    d.scheduledAt ≤ d'.scheduledAt ∨ ∃ k current s, a = .finalize k current ∧
      c.world.sends.get k = some s ∧ s.claim.deliveryId = i ∧ s.claim.attempts < d.attempts := by
  rcases hmove.schedule with hsame | ⟨k, current, s, f, due, ha, hs, rfl, hf, hdue, hsending, hnew⟩
  · exact Or.inl hsame.ge
  · by_cases hheld : d.attempts = s.claim.attempts
    · left
      obtain ⟨d₀, hd₀, htracked⟩ := h.sends k s hs
      rw [hd] at hd₀
      cases hd₀
      rw [hnew, htracked.held hsending hheld]
      exact htracked.due.trans ((h.settled k s f hs hf).2 due hdue)
    · have hle := claim_le h.reach hs hd
      exact Or.inr ⟨k, current, s, ha, hs, rfl, lt_of_le_of_ne hle (Ne.symm hheld)⟩

theorem Reminded.attempt (h : Reminded site c) (a : Attempt) :
    Reminded site { c with world := c.world.perform site.settings (c.act a) } := by
  obtain ⟨hkept, hmoves⟩ := @act_moves site.settings c a
  have hsettled : ∀ k s f, c.world.sends.get k = some s →
      s.finalization site.settings = some f → f.status ≠ .sending :=
    fun k s f hs hf => (h.settled k s f hs hf).1
  have hrow : ∀ i d, c.world.db.deliveries.get i = some d →
      ∃ d', (c.world.perform site.settings (c.act a)).db.deliveries.get i = some d' ∧
        RowMove site.settings c.world (c.act a) i d d' :=
    fun i d hd => (perform_deed site.settings c.world (c.act a)).row_move hd
  have hback : ∀ i d', (c.world.perform site.settings (c.act a)).db.deliveries.get i = some d' →
      ∃ d, c.world.db.deliveries.get i = some d ∧
        RowMove site.settings c.world (c.act a) i d d' := by
    intro i d' hd'
    cases hd : c.world.db.deliveries.get i with
    | none =>
      rw [hkept.none i hd] at hd'
      cases hd'
    | some d =>
      obtain ⟨d'', hd'', hmove⟩ := hrow i d hd
      rw [hd'] at hd''
      cases hd''
      exact ⟨d, rfl, hmove⟩
  -- A send that was there has its row still, and reads the same of it.
  have hold : ∀ call s, c.world.sends.get call = some s →
      ∃ d', (c.world.perform site.settings (c.act a)).db.deliveries.get s.claim.deliveryId =
        some d' ∧ Tracked (c.world.perform site.settings (c.act a)) s d' := by
    intro call s hs
    obtain ⟨d, hd, htracked⟩ := h.sends call s hs
    obtain ⟨d', hd', hmove⟩ := hrow _ d hd
    exact ⟨d', hd', htracked.move hmove (claim_le h.reach hs hd) hsettled hkept.notes⟩
  refine ⟨.step h.reach rfl, h.clock, fun i j d e hd he hkey huser hchannel => ?_,
    fun i d' k spec hd' hspec hkey => ?_, fun call s' hs' => ?_,
    fun call s' k spec claim hs' hspec hkey hclaim => ?_, fun call s' hs' => ?_⟩
  · obtain ⟨d₀, hd₀, hmove⟩ := hback i d hd
    obtain ⟨e₀, he₀, hmove'⟩ := hback j e he
    refine h.unique i j d₀ e₀ hd₀ he₀ ?_ ?_ ?_
    · rw [← hmove.sameRow.eventKey, ← hmove'.sameRow.eventKey, hkey]
    · rw [← hmove.sameRow.userId, ← hmove'.sameRow.userId, huser]
    · rw [← hmove.sameRow.channel, ← hmove'.sameRow.channel, hchannel]
  · obtain ⟨d, hd, hmove⟩ := hback i d' hd'
    rw [hmove.sameRow.eventKey] at hkey
    obtain ⟨claim, hclaim, hrow⟩ := h.rows i d k spec hd hspec hkey
    refine ⟨claim, hclaim, hrow.move (.refl claim) hkept.users hkept.notes hmove.sameRow ?_⟩
    rcases hmove.schedule with hsame | ⟨call, current, s, f, due, _, hs, rfl, hf, hdue, _, hnew⟩
    · rw [hsame]
      exact hrow.due
    · obtain ⟨d₀, hd₀, htracked⟩ := h.sends call s hs
      rw [hd] at hd₀
      cases hd₀
      have hahead := h.ahead call s k spec claim hs hspec (htracked.key.trans hkey) hclaim
      rw [hnew]
      exact hahead.trans (htracked.due.trans ((h.settled call s f hs hf).2 due hdue))
  · cases hmoves call s' hs' with
    | same _ _ hs => exact hold call s' hs
    | claimed id d n u hd hn hclaimable hafter =>
      obtain ⟨n', hn', htype⟩ := hkept.notes _ n hn
      exact ⟨d.begin c.life.now, hafter, rfl, ⟨n', hn', htype⟩, hclaimable.due, fun _ _ => rfl,
        fun f hphase => (by cases hphase)⟩
    | resolved s f hs hphase hf =>
      obtain ⟨d', hd', htracked⟩ := hold call s hs
      refine ⟨d', hd', htracked.key, htracked.type, htracked.due, htracked.held, fun f' hf' => ?_⟩
      cases hf'
      exact dispatch_settles hf
    | calling s r hs =>
      obtain ⟨d', hd', htracked⟩ := hold call s hs
      exact ⟨d', hd', htracked.key, htracked.type, htracked.due, htracked.held,
        fun f' hf' => (by cases hf')⟩
    | replied s r hs =>
      obtain ⟨d', hd', htracked⟩ := hold call s hs
      exact ⟨d', hd', htracked.key, htracked.type, htracked.due, htracked.held,
        fun f' hf' => (by cases hf')⟩
  · cases hmoves call s' hs' with
    | same _ _ hs => exact h.ahead call s' k spec claim hs hspec hkey hclaim
    | claimed id d n u hd hn hclaimable hafter =>
      obtain ⟨claim', hclaim', hrow⟩ := h.rows id d k spec hd hspec hkey
      rw [hclaim] at hclaim'
      cases hclaim'
      exact hrow.due
    | resolved s f hs => exact h.ahead call s k spec claim hs hspec hkey hclaim
    | calling s r hs => exact h.ahead call s k spec claim hs hspec hkey hclaim
    | replied s r hs => exact h.ahead call s k spec claim hs hspec hkey hclaim
  · cases hmoves call s' hs' with
    | same _ _ hs => exact h.past call s' hs
    | claimed => exact le_rfl
    | resolved s f hs => exact h.past call s hs
    | calling s r hs => exact h.past call s hs
    | replied s r hs => exact h.past call s hs

theorem Reminded.message (h : Reminded site c) {key : EventKey} (hkey : key.reminder = false)
    (intent : RecordIntent) (render : Render) :
    Reminded site
      { c with world := c.world.recordIntent site.settings render c.life.now (key, intent) } := by
  refine h.record ((recordIntent_grown render c.life.now (key, intent) c.world).1.mono
    (Q := NewRow site c.world c.life 0) fun d t hplanned => Or.inl ?_)
  rw [hplanned.1]
  exact hkey

theorem reminded_inductive : (campus site).Inductive (Reminded site) where
  init c h := by
    obtain ⟨hlife, hdeliveries, hsends, hrequests⟩ := h
    refine ⟨.init ⟨hdeliveries, hsends, hrequests⟩, fun k claim hclaim => ?_,
      fun i j d e hd => ?_, fun i d k spec hd => ?_, fun call s hs => ?_,
      fun call s k spec claim hs => ?_, fun call s hs => ?_⟩
    · rw [hlife.claims] at hclaim
      cases hclaim
    · rw [hdeliveries] at hd
      cases hd
    · rw [hdeliveries] at hd
      cases hd
    all_goals
      rw [hsends] at hs
      cases hs
  step c m c' h hstep := by
    obtain rfl : c' = c.perform site m := hstep
    cases m with
    | lifecycle op render =>
      unfold Campus.perform
      dsimp only
      split
      next => exact h.lifecycle op
      next event _ =>
        split
        next world hworld => exact (h.lifecycle op).record (record_grown hworld).1
        next => exact h
    | message key intent render =>
      unfold Campus.perform
      dsimp only
      split
      next => exact h
      next hkey => exact h.message (Bool.not_eq_true _ ▸ hkey) intent render
    | attempt a => exact h.attempt a

end Invariant

/-! ### Whole runs -/

def Skipped (error : Option Text) : Prop := ∃ reason, error = some (skippedPrefix ++ reason)

def NotificationDelivery.ReallySent (d : NotificationDelivery) : Prop :=
  d.status = .sent ∧ ¬ Skipped d.lastError

def Sending.Goes (s : Sending) : Prop :=
  s.phase ≠ .claimed ∧ ∀ f, s.phase = .resolved f → ¬ Skipped f.lastError

/-- An attempt reads the claim as one that can still be worked on, when the reminder is due. -/
def Reads (k : ClaimId) (spec : NotificationEventType × Text × Duration) (x : Claim)
    (e : Campus × Move × Campus) : Prop :=
  ∃ call s claim, e.2.1 = .attempt (.dispatch call) ∧ e.1.world.sends.get call = some s ∧
    s.claim = x ∧ e.1.life.db.claims.get k = some claim ∧
      (claim.status = .claimed ∨ claim.status = .revisionRequired) ∧
        claim.deadlineAt - spec.2.2 ≤ e.1.life.now

def Writes (x : Claim) (e : Campus × Move × Campus) : Prop :=
  ∃ call current s, e.2.1 = .attempt (.finalize call current) ∧
    e.1.world.sends.get call = some s ∧ s.claim = x

def Arms (k : ClaimId) (e : Campus × Move × Campus) : Prop :=
  e.1.life.db.claims.get k = none ∧ e.2.2.life.db.claims.get k ≠ none ∨
  ∃ run report detected render row submission,
    e.2.1 = .lifecycle (.finishValidation run report detected) render ∧
      report.verdict = .validationFailed ∧ e.1.life.db.runs.get run = some row ∧
        e.1.life.db.submissions.get row.submissionId = some submission ∧ submission.claimId = k ∧
          e.1.life.unfinished run = true ∧ e.2.2.life.unfinished run = false

/-- A retry gives the row another instant: a later one, unless the attempt that writes it has been
overtaken. -/
def Rescheduled (site : Site) (c : Campus) (m : Move) (i : DeliveryId) (d : NotificationDelivery)
    (due : Instant) : Prop :=
  ∃ call current s f, m = .attempt (.finalize call current) ∧ c.world.sends.get call = some s ∧
    s.claim.deliveryId = i ∧ s.finalization site.settings = some f ∧ f.retryDueAt = some due ∧
      (d.scheduledAt ≤ due ∨ s.claim.attempts < d.attempts)

section Steps

variable {site : Site} {c : Campus} {m : Move} {k : ClaimId}
  {spec : NotificationEventType × Text × Duration}

theorem act_finalize {a : Attempt} {call : CallId} {current : Bool}
    (h : c.act a = .finalize call current) : a = .finalize call current := by
  cases a <;> simp_all [Campus.act]

/-- An operation commits with what it records, or not at all. -/
theorem perform_lifecycle (site : Site) (c : Campus) (op : Op) (render : Render) :
    c.recorded op = none ∧ c.perform site (.lifecycle op render) =
        { c with life := c.life.apply op } ∨
    (∃ event w, c.recorded op = some event ∧
      Campus.record site render c.world (c.life.apply op) event = .ok w ∧
        c.perform site (.lifecycle op render) = ⟨c.life.apply op, w⟩) ∨
    c.perform site (.lifecycle op render) = c := by
  unfold Campus.perform
  dsimp only
  cases hevent : c.recorded op with
  | none => exact Or.inl ⟨rfl, rfl⟩
  | some event =>
    dsimp only
    cases hw : Campus.record site render c.world (c.life.apply op) event with
    | ok w => exact Or.inr (Or.inl ⟨event, w, rfl, hw, rfl⟩)
    | error => exact Or.inr (Or.inr rfl)

/-- A step is an attempt, or it only adds rows. -/
theorem perform_cases (site : Site) (c : Campus) (m : Move) :
    (∃ a, m = .attempt a ∧ c.perform site m =
      { c with world := c.world.perform site.settings (c.act a) }) ∨
    ∃ id, Grown site.settings (NewRow site c.world (c.perform site m).life id) c.world
      (c.perform site m).world := by
  cases m with
  | attempt a => exact Or.inl ⟨a, rfl, rfl⟩
  | lifecycle op render =>
    right
    rcases perform_lifecycle site c op render with ⟨_, heq⟩ | ⟨event, w, _, hw, heq⟩ | heq
    · rw [heq]
      exact ⟨0, .refl _⟩
    · rw [heq]
      exact ⟨event.claimId, (record_grown hw).1⟩
    · rw [heq]
      exact ⟨0, .refl _⟩
  | message key intent render =>
    right
    unfold Campus.perform
    dsimp only
    split
    next => exact ⟨0, .refl _⟩
    next hkey =>
      refine ⟨0, (recordIntent_grown render c.life.now (key, intent) c.world).1.mono
        fun d t hplanned => Or.inl ?_⟩
      rw [hplanned.1]
      exact Bool.not_eq_true _ ▸ hkey

/-- No delivery is lost. -/
theorem has_perform {key : EventKey} {userId : UserId} {channel : NotificationChannel}
    (h : c.world.Has key userId channel) : (c.perform site m).world.Has key userId channel := by
  rcases perform_cases site c m with ⟨a, _, heq⟩ | ⟨_, hgrown⟩
  · obtain ⟨i, d, hd, hkey, huser, hchannel⟩ := h
    obtain ⟨d', hd', hmove⟩ :=
      (perform_deed site.settings c.world (c.act a)).row_move hd
    rw [heq]
    exact ⟨i, d', hd', hmove.sameRow.eventKey.trans hkey, hmove.sameRow.userId.trans huser,
      hmove.sameRow.channel.trans hchannel⟩
  · exact hgrown.has h

/-- A row of a reminder is inserted at the instant of the reminder. -/
theorem inserted_at {i : DeliveryId} {d : NotificationDelivery} (hspec : spec ∈ reminderSpecs)
    (hnone : c.world.db.deliveries.get i = none)
    (hd : (c.perform site m).world.db.deliveries.get i = some d)
    (hkey : d.eventKey = .claim k spec.2.1) :
    d.status = .pending ∧ ∃ claim, (c.perform site m).life.db.claims.get k = some claim ∧
      d.scheduledAt = claim.deadlineAt - spec.2.2 := by
  rcases perform_cases site c m with ⟨a, _, heq⟩ | ⟨id, hgrown⟩
  · have hkept := (@act_moves site.settings c a).1.none i hnone
    rw [heq] at hd
    rw [hkept] at hd
    cases hd
  · rcases hgrown.rows i d hd with hold | ⟨hpending, _, n, _, hnew⟩
    · rw [hnone] at hold
      cases hold
    · obtain ⟨claim, _, entry, hclaim, _, hplan, hrow⟩ := hnew.reminder hspec hkey
      exact ⟨hpending, claim, hclaim, hrow.2.2.2.1.trans hplan.due⟩

/-- A row that is there keeps its identity, and only a retry moves its instant. -/
theorem moved_by (h : Reminded site c) {i : DeliveryId} {d : NotificationDelivery}
    (hd : c.world.db.deliveries.get i = some d) :
    ∃ d', (c.perform site m).world.db.deliveries.get i = some d' ∧ SameRow d d' ∧
      (d'.scheduledAt = d.scheduledAt ∨ Rescheduled site c m i d d'.scheduledAt) := by
  rcases perform_cases site c m with ⟨a, rfl, heq⟩ | ⟨_, hgrown⟩
  · obtain ⟨d', hd', hmove⟩ :=
      (perform_deed site.settings c.world (c.act a)).row_move hd
    rw [heq]
    refine ⟨d', hd', hmove.sameRow, ?_⟩
    rcases hmove.schedule with hsame | ⟨call, current, s, f, due, ha, hs, hid, hf, hdue, _, hnew⟩
    · exact Or.inl hsame
    · right
      have hf' : f.retryDueAt = some d'.scheduledAt := by rw [hnew, hdue]
      refine ⟨call, current, s, f, ?_, hs, hid, hf, hf', ?_⟩
      · rw [act_finalize ha]
      · rcases h.forward hd hmove with hle | ⟨call', current', s', ha', hs', _, hlt⟩
        · exact Or.inl hle
        · rw [ha] at ha'
          cases ha'
          rw [hs] at hs'
          cases hs'
          exact Or.inr hlt
  · exact ⟨d, hgrown.kept i d hd, .refl d, Or.inl rfl⟩

theorem arms_recorded (h : Arms k (c, m, c.perform site m)) :
    ∃ op render event w, c.recorded op = some event ∧ event.claimId = k ∧
      Campus.record site render c.world (c.life.apply op) event = .ok w ∧
        c.perform site m = ⟨c.life.apply op, w⟩ ∧ (c.life.apply op).now = c.life.now := by
  rcases h with ⟨hnone, hsome⟩ | ⟨run, report, detected, render, row, submission, hm, hverdict,
    hrun, hsubmission, rfl, hopen, hdone⟩
  · dsimp only at hnone hsome
    cases m with
    | attempt a => exact absurd hnone hsome
    | message key intent render =>
      unfold Campus.perform at hsome
      dsimp only at hsome
      split at hsome <;> exact absurd hnone hsome
    | lifecycle op render =>
      have hnew : (c.life.apply op).db.claims.get k ≠ none →
          c.recorded op = some (.claimCreated k) ∧ (c.life.apply op).now = c.life.now := by
        intro hne
        obtain ⟨claim, hclaim⟩ := Option.ne_none_iff_exists'.mp hne
        obtain ⟨⟨user, task, choice, rfl⟩, _⟩ := claim_new hnone hclaim
        exact ⟨if_pos ⟨hnone, hne⟩, commit_now _ _⟩
      rcases perform_lifecycle site c op render with ⟨hevent, heq⟩ | ⟨event, w, hevent, hw, heq⟩ |
        heq
      · rw [heq] at hsome
        rw [(hnew hsome).1] at hevent
        cases hevent
      · rw [heq] at hsome
        obtain ⟨hcreated, hnow⟩ := hnew hsome
        rw [hevent] at hcreated
        cases hcreated
        exact ⟨op, render, _, w, hevent, rfl, hw, heq, hnow⟩
      · rw [heq] at hsome
        exact absurd hnone hsome
  · dsimp only at hm hrun hsubmission hopen hdone
    subst hm
    have hrecorded : c.recorded (.finishValidation run report detected) =
        some (.validationFailed row.submissionId submission.claimId) := by
      unfold Campus.recorded
      dsimp only
      rw [if_pos ⟨hopen, hverdict⟩, hrun, Option.bind_some, hsubmission]
      rfl
    rcases perform_lifecycle site c (.finishValidation run report detected) render with
      ⟨hevent, _⟩ | ⟨event, w, hevent, hw, heq⟩ | heq
    · rw [hrecorded] at hevent
      cases hevent
    · rw [hrecorded] at hevent
      cases hevent
      refine ⟨_, render, _, w, hrecorded, rfl, hw, heq, ?_⟩
      change (if c.life.unfinished run = true then _ else c.life).now = _
      rw [if_pos hopen]
      exact commit_now _ _
    · rw [heq, hopen] at hdone
      cases hdone

end Steps

section Policy

variable {x : Claim} {now : Instant} {claimStatus : ClaimId → Option ClaimStatus}

theorem token_skipped {token : Text} (h : dispatchSkipToken x now claimStatus = .ok (some token)) :
    Skipped (some token) := by
  unfold dispatchSkipToken at h
  split at h
  next reason _ =>
    cases h
    exact ⟨reason, rfl⟩
  next =>
    split_ifs at h
    · cases h
    · split at h
      next => cases h
      next id _ =>
        split at h
        next =>
          cases h
          exact ⟨_, rfl⟩
        next status _ =>
          split_ifs at h
          · cases h
          · cases h
            exact ⟨_, congrArg some (List.append_assoc _ _ _)⟩
    · cases h

/-- A reminder of a claim is let go only while the claim can be worked on, and not early. -/
theorem token_reads {k : ClaimId} (hkey : x.eventKey.claimId = some k)
    (htype : x.eventType.deadlineReminder = true)
    (h : dispatchSkipToken x now claimStatus = .ok none) :
    ∃ status, claimStatus k = some status ∧ shouldSendReminder status now x.scheduledAt = true := by
  unfold dispatchSkipToken at h
  have hother : x.eventType ≠ .ieRecruitmentConfirmationDue := by
    intro heq
    rw [heq] at htype
    cases htype
  split at h
  next => cases h
  next =>
    rw [if_neg hother, if_pos htype, hkey] at h
    dsimp only at h
    cases hstatus : claimStatus k with
    | none =>
      rw [hstatus] at h
      cases h
    | some status =>
      rw [hstatus] at h
      dsimp only at h
      by_cases hsend : shouldSendReminder status now x.scheduledAt = true
      · exact ⟨status, rfl, hsend⟩
      · rw [if_neg hsend] at h
        cases h

/-- A dispatch that lets the send go has read the claim. -/
theorem dispatch_reads {k : ClaimId} {answer : Finalization ⊕ ProviderRequest}
    (hkey : x.eventKey.claimId = some k) (htype : x.eventType.deadlineReminder = true)
    (h : dispatch x now claimStatus = .ok answer)
    (hgoes : ∀ f, answer = .inl f → ¬ Skipped f.lastError) :
    ∃ status, claimStatus k = some status ∧ shouldSendReminder status now x.scheduledAt = true := by
  unfold dispatch at h
  obtain ⟨token, htoken, h⟩ := bind_ok.mp h
  cases token with
  | some token =>
    cases h
    exact absurd (token_skipped htoken) (hgoes _ rfl)
  | none => exact token_reads hkey htype htoken

/-- A judgement only adds a marker. -/
theorem judge_skipped {f : Finalization} {current : Bool} (h : Skipped f.lastError) :
    Skipped (f.judge current).lastError := by
  unfold Finalization.judge
  split
  · exact ⟨_, rfl⟩
  · exact h

end Policy

section Histories

variable {site : Site} {c₀ c : Campus} {l : List (Campus × Move × Campus)} {k : ClaimId}
  {spec : NotificationEventType × Text × Duration}

theorem reminded_run (hinit : c₀.Initial) (hrun : (campus site).Run c₀ l c) : Reminded site c :=
  reminded_inductive.reach (hrun.reach (.init hinit))

theorem Reminded.sendType (h : Reminded site c) {call : CallId} {s : Sending}
    (hs : c.world.sends.get call = some s) (hspec : spec ∈ reminderSpecs)
    (hkey : s.claim.eventKey = .claim k spec.2.1) : s.claim.eventType.deadlineReminder = true := by
  obtain ⟨d, hd, htracked⟩ := h.sends call s hs
  obtain ⟨claim, _, hrow⟩ := h.rows _ d k spec hd hspec (htracked.key.symm.trans hkey)
  obtain ⟨n, hn, htype⟩ := htracked.type
  obtain ⟨n', hn', htype'⟩ := hrow.type
  rw [hn] at hn'
  cases hn'
  rw [← htype, htype']
  exact deadlineReminder_of_spec hspec

/-- A dispatch that lets the send of a reminder go reads its claim. -/
theorem Reminded.reads (h : Reminded site c) {call : CallId} {s : Sending} {c' : Campus}
    {answer : Finalization ⊕ ProviderRequest} (hs : c.world.sends.get call = some s)
    (hspec : spec ∈ reminderSpecs) (hkey : s.claim.eventKey = .claim k spec.2.1)
    (hanswer : Notifications.dispatch s.claim s.now
      (fun id => (c.life.db.claims.get id).map (·.status)) = .ok answer)
    (hgoes : ∀ f, answer = .inl f → ¬ Skipped f.lastError) :
    Reads k spec s.claim (c, .attempt (.dispatch call), c') := by
  have hid : s.claim.eventKey.claimId = some k := by rw [hkey]; rfl
  obtain ⟨status, hstatus, hsend⟩ := dispatch_reads hid (h.sendType hs hspec hkey) hanswer hgoes
  obtain ⟨claim, hclaim, rfl⟩ := Option.map_eq_some_iff.mp hstatus
  unfold shouldSendReminder at hsend
  rw [Bool.and_eq_true, decide_eq_true_eq] at hsend
  refine ⟨call, s, claim, rfl, hs, rfl, hclaim, ?_, ?_⟩
  · have hactionable := hsend.1
    generalize claim.status = status at hactionable
    cases status <;> simp_all [ClaimStatus.actionable]
  · exact (h.ahead call s k spec claim hs hspec hkey hclaim).trans
      (hsend.2.trans (h.past call s hs))

theorem goes_read (hinit : c₀.Initial) (hrun : (campus site).Run c₀ l c) (call : CallId)
    (s : Sending) (hs : c.world.sends.get call = some s) (hspec : spec ∈ reminderSpecs)
    (hkey : s.claim.eventKey = .claim k spec.2.1) (hgoes : s.Goes) :
    ∃ e ∈ l, Reads k spec s.claim e := by
  induction hrun generalizing call s with
  | nil =>
    rw [hinit.world.sends] at hs
    cases hs
  | @snoc c' c'' m l hrun hstep ih =>
    obtain rfl : c'' = c'.perform site m := hstep
    have h := reminded_run hinit hrun
    have hbefore : ∀ s', c'.world.sends.get call = some s' → s'.claim = s.claim → s'.Goes →
        ∃ e ∈ l ++ [(c', m, c'.perform site m)], Reads k spec s.claim e := by
      intro s' hs' hsame hgoes'
      obtain ⟨e, he, hreads⟩ := ih call s' hs' (hsame ▸ hkey) hgoes'
      exact ⟨e, List.mem_append_left _ he, hsame ▸ hreads⟩
    rcases perform_cases site c' m with ⟨a, rfl, heq⟩ | ⟨_, hgrown⟩
    · rw [heq] at hs
      cases (@act_moves site.settings c' a).2 call s hs with
      | same _ _ hold => exact hbefore s hold rfl hgoes
      | claimed => exact absurd rfl hgoes.1
      | resolved s' f hs' hphase hf =>
        refine ⟨_, List.mem_append_right _ (List.mem_singleton_self _),
          h.reads (s := s') hs' hspec hkey hf fun f' hf' => ?_⟩
        cases hf'
        exact hgoes.2 f rfl
      | calling s' r hs' hphase hr =>
        exact ⟨_, List.mem_append_right _ (List.mem_singleton_self _),
          h.reads (s := s') hs' hspec hkey hr fun f' hf' => (by cases hf')⟩
      | replied s' r hs' hphase =>
        refine hbefore s' hs' rfl ⟨?_, fun f hf => ?_⟩
        · rw [hphase]
          exact fun hclaimed => (by cases hclaimed)
        · rw [hphase] at hf
          cases hf
    · rw [hgrown.sends] at hs
      exact hbefore s hs rfl hgoes

/-- A row becomes really sent when a send that goes writes it. -/
theorem RowMove.sent {settings : DeliverySettings} {w : World} {a : Act} {i : DeliveryId}
    {d d' : NotificationDelivery} (h : RowMove settings w a i d d') (hsent : d'.ReallySent) :
    d.ReallySent ∨ ∃ call current s, a = .finalize call current ∧ w.sends.get call = some s ∧
      s.claim.deliveryId = i ∧ s.Goes := by
  obtain ⟨hstatus, hmarker⟩ := hsent
  cases h with
  | same => exact Or.inl ⟨hstatus, hmarker⟩
  | claimed => cases hstatus
  | recovered => cases hstatus
  | failed => cases hstatus
  | settled call current s f ha hs hid hf hsending =>
    refine Or.inr ⟨call, current, s, ha, hs, hid, ?_⟩
    have hfree : ¬ Skipped f.lastError := fun hskipped => hmarker (judge_skipped hskipped)
    rcases finalization_cases hf with hphase | ⟨r, hphase, _⟩
    · refine ⟨?_, fun f' hf' => ?_⟩
      · rw [hphase]
        exact fun hclaimed => (by cases hclaimed)
      · rw [hphase] at hf'
        cases hf'
        exact hfree
    · refine ⟨?_, fun f' hf' => ?_⟩
      · rw [hphase]
        exact fun hclaimed => (by cases hclaimed)
      · rw [hphase] at hf'
        cases hf'

/-- Every reminder that is really sent was written by an attempt that had read the claim. -/
theorem sent_read (hinit : c₀.Initial) (hrun : (campus site).Run c₀ l c) (i : DeliveryId)
    (d : NotificationDelivery) (hd : c.world.db.deliveries.get i = some d)
    (hspec : spec ∈ reminderSpecs) (hkey : d.eventKey = .claim k spec.2.1)
    (hsent : d.ReallySent) :
    ∃ x l₁ e l₂, l = l₁ ++ e :: l₂ ∧ x.deliveryId = i ∧ Writes x e ∧
      ∃ e' ∈ l₁, Reads k spec x e' := by
  induction hrun generalizing d with
  | nil =>
    rw [hinit.world.deliveries] at hd
    cases hd
  | @snoc c' c'' m l hrun hstep ih =>
    obtain rfl : c'' = c'.perform site m := hstep
    have h := reminded_run hinit hrun
    have hbefore : ∀ d', c'.world.db.deliveries.get i = some d' → d'.eventKey = d.eventKey →
        d'.ReallySent → ∃ x l₁ e l₂, l ++ [(c', m, c'.perform site m)] = l₁ ++ e :: l₂ ∧
          x.deliveryId = i ∧ Writes x e ∧ ∃ e' ∈ l₁, Reads k spec x e' := by
      intro d' hd' hsame hsent'
      obtain ⟨x, l₁, e, l₂, rfl, hwrite⟩ := ih d' hd' (hsame.trans hkey) hsent'
      exact ⟨x, l₁, e, l₂ ++ [(c', m, c'.perform site m)], by simp, hwrite⟩
    rcases perform_cases site c' m with ⟨a, rfl, heq⟩ | ⟨_, hgrown⟩
    · rw [heq] at hd
      cases hold : c'.world.db.deliveries.get i with
      | none =>
        rw [(@act_moves site.settings c' a).1.none i hold] at hd
        cases hd
      | some d' =>
        obtain ⟨d'', hd'', hmove⟩ :=
          (perform_deed site.settings c'.world (c'.act a)).row_move hold
        rw [hd] at hd''
        cases hd''
        rcases hmove.sent hsent with hsent' | ⟨call, current, s, ha, hs, rfl, hgoes⟩
        · exact hbefore d' hold hmove.sameRow.eventKey.symm hsent'
        · obtain ⟨d₀, hd₀, htracked⟩ := h.sends call s hs
          rw [hold] at hd₀
          cases hd₀
          have hkeys := htracked.key.trans (hmove.sameRow.eventKey.symm.trans hkey)
          refine ⟨s.claim, l, _, [], rfl, rfl, ⟨call, current, s, ?_, hs, rfl⟩,
            goes_read hinit hrun call s hs hspec hkeys hgoes⟩
          rw [act_finalize ha]
    · rcases hgrown.rows i d hd with hold | ⟨hpending, _⟩
      · exact hbefore d hold rfl hsent
      · rw [hsent.1] at hpending
        cases hpending

/-- What arms a claim leaves a row for each reminder that is ahead and enabled, from then on. -/
theorem armed_has (hrun : (campus site).Run c₀ l c) {e : Campus × Move × Campus} (he : e ∈ l)
    (harms : Arms k e) {claim : AssignmentClaim} {user : User}
    (hclaim : e.2.2.life.db.claims.get k = some claim)
    (huser : e.1.world.db.users.get claim.userId = some user) (hspec : spec ∈ reminderSpecs)
    (hahead : e.1.life.now ≤ claim.deadlineAt - spec.2.2) {channels : List NotificationChannel}
    (hchannels : eligibleChannels user (some (site.policy claim.taskId)) spec.1 = .ok channels)
    {channel : NotificationChannel} (hchannel : channel ∈ channels) :
    c.world.Has (.claim k spec.2.1) claim.userId channel := by
  induction hrun with
  | nil => exact absurd he List.not_mem_nil
  | @snoc c' c'' m l hrun hstep ih =>
    obtain rfl : c'' = c'.perform site m := hstep
    rcases List.mem_append.mp he with hold | hnew
    · exact has_perform (ih hold)
    · rw [List.mem_singleton] at hnew
      subst hnew
      obtain ⟨op, render, event, w, _, rfl, hw, heq, hnow⟩ := arms_recorded harms
      dsimp only at hclaim huser hahead
      rw [heq] at hclaim ⊢
      rw [← hnow] at hahead
      exact (record_grown hw).2 claim user hclaim huser spec hspec hahead channels hchannels
        channel hchannel

end Histories

/-- The reminders of a claim in every run. A channel has at most one row; each row is the claim's,
on an eligible channel, and stands at the reminder's instant or later. It is inserted at that
instant, and only a retry moves it: forward, unless the attempt that writes has been overtaken.
Whatever arms the claim leaves a row for each reminder that is ahead, and a reminder that was past
when the claim was made has none. A row that was really sent was written by an attempt that had
read the claim as CLAIMED or REVISION_REQUIRED at the reminder's instant or later. -/
theorem reminders_follow_claim (site : Site) {c₀ c : Campus}
    {l : List (Campus × Move × Campus)} (hinit : c₀.Initial) (hrun : (campus site).Run c₀ l c)
    (k : ClaimId) {spec : NotificationEventType × Text × Duration} (hspec : spec ∈ reminderSpecs) :
    (∀ i j d d', c.world.db.deliveries.get i = some d → c.world.db.deliveries.get j = some d' →
      d.eventKey = .claim k spec.2.1 → d'.eventKey = .claim k spec.2.1 →
        d.channel = d'.channel → i = j) ∧
    (∀ i d, c.world.db.deliveries.get i = some d → d.eventKey = .claim k spec.2.1 →
      ∃ claim, c.life.db.claims.get k = some claim ∧ Row site c.world claim spec d) ∧
    (∀ c₁ m c₂, (c₁, m, c₂) ∈ l → ∀ i,
      (∀ d, c₂.world.db.deliveries.get i = some d → c₁.world.db.deliveries.get i = none →
        d.eventKey = .claim k spec.2.1 → d.status = .pending ∧
          ∃ claim, c₂.life.db.claims.get k = some claim ∧
            d.scheduledAt = claim.deadlineAt - spec.2.2) ∧
      ∀ d, c₁.world.db.deliveries.get i = some d →
        ∃ d', c₂.world.db.deliveries.get i = some d' ∧ SameRow d d' ∧
          (d'.scheduledAt = d.scheduledAt ∨ Rescheduled site c₁ m i d d'.scheduledAt)) ∧
    (∀ e ∈ l, Arms k e → ∀ claim user channels, e.2.2.life.db.claims.get k = some claim →
      e.1.world.db.users.get claim.userId = some user →
        e.1.life.now ≤ claim.deadlineAt - spec.2.2 →
          eligibleChannels user (some (site.policy claim.taskId)) spec.1 = .ok channels →
            ∀ channel ∈ channels, c.world.Has (.claim k spec.2.1) claim.userId channel) ∧
    (∀ claim, c.life.db.claims.get k = some claim →
      claim.deadlineAt - spec.2.2 < claim.claimedAt → ∀ i d,
        c.world.db.deliveries.get i = some d → d.eventKey ≠ .claim k spec.2.1) ∧
    ∀ i d, c.world.db.deliveries.get i = some d → d.eventKey = .claim k spec.2.1 →
      d.ReallySent → ∃ x l₁ e l₂, l = l₁ ++ e :: l₂ ∧ x.deliveryId = i ∧ Writes x e ∧
        ∃ e' ∈ l₁, Reads k spec x e' := by
  have h := reminded_run hinit hrun
  refine ⟨fun i j d d' hd hd' hkey hkey' hchannel => ?_,
    fun i d hd hkey => h.rows i d k spec hd hspec hkey,
    fun c₁ m c₂ hmem i => ⟨fun d hd hnone hkey => ?_, fun d hd => ?_⟩,
    fun e he harms claim user channels hclaim huser hahead hchannels channel hchannel =>
      armed_has hrun he harms hclaim huser hspec hahead hchannels hchannel,
    fun claim hclaim hpast i d hd hkey => ?_,
    fun i d hd hkey hsent => sent_read hinit hrun i d hd hspec hkey hsent⟩
  · obtain ⟨claim, hclaim, hrow⟩ := h.rows i d k spec hd hspec hkey
    obtain ⟨claim', hclaim', hrow'⟩ := h.rows j d' k spec hd' hspec hkey'
    rw [hclaim] at hclaim'
    cases hclaim'
    exact h.unique i j d d' hd hd' (hkey.trans hkey'.symm) (hrow.userId.trans hrow'.userId.symm)
      hchannel
  · obtain ⟨hstep, _⟩ := hrun.step_mem hmem
    obtain rfl : c₂ = c₁.perform site m := hstep
    exact inserted_at hspec hnone hd hkey
  · obtain ⟨hstep, l', hbefore⟩ := hrun.step_mem hmem
    obtain rfl : c₂ = c₁.perform site m := hstep
    exact moved_by (reminded_run hinit hbefore) hd
  · obtain ⟨claim', hclaim', hrow⟩ := h.rows i d k spec hd hspec hkey
    rw [hclaim] at hclaim'
    cases hclaim'
    exact absurd hrow.planned (not_le.mpr hpast)

section Scenario

open Lifecycle (opening base_pos opening_initial)

def plainUuid : Uuid := ⟨List.replicate 36 'a', by decide⟩

def plainSite : Site := ⟨.default, fun _ => plainUuid, fun _ => plainUuid, fun _ => {}⟩

def openingCampus : Campus where
  life := opening 50 base_pos
  world := ⟨⟨.empty, Table.empty.put 7 ⟨.active, some ['1'], none, none⟩, .empty⟩, .empty, []⟩

theorem initial_openingCampus : openingCampus.Initial :=
  ⟨opening_initial 50 base_pos, rfl, rfl, rfl⟩

def Campus.run (c : Campus) (moves : List Move) : Campus := moves.foldl (Campus.perform plainSite) c

def Campus.trace (c : Campus) (moves : List Move) : List (Campus × Move × Campus) :=
  traceOf (Campus.perform plainSite) c moves

def plainRender : Render := fun _ _ => ([], [])

def Move.tick (now : Instant) : Move := .lifecycle (.tick now) plainRender

/-- The student claims, and a day before the deadline the text message is sent. -/
def reminded : List Move :=
  [.lifecycle (.claim 7 1 1 (some 1)) plainRender, .tick (hours 144), .attempt (.claim 0 1),
    .attempt (.dispatch 0), .attempt (.reply 0 (.accepted none)), .attempt (.finalize 0 true)]

def dayReminder : NotificationEventType × Text × Duration :=
  ⟨.assignmentDeadline24h, "deadline_24h".toList, hours 24⟩

theorem dayReminder_mem : dayReminder ∈ reminderSpecs := List.mem_cons_self

theorem reminders_follow_claim_sent :
    ∃ d, (openingCampus.run reminded).world.db.deliveries.get 1 = some d ∧ d.ReallySent ∧
      (∃ claim, (openingCampus.run reminded).life.db.claims.get 1 = some claim ∧
        Row plainSite (openingCampus.run reminded).world claim dayReminder d) ∧
      ∃ x l₁ e l₂, openingCampus.trace reminded = l₁ ++ e :: l₂ ∧ x.deliveryId = 1 ∧ Writes x e ∧
        ∃ e' ∈ l₁, Reads 1 dayReminder x e' := by
  have hrow : ((openingCampus.run reminded).world.db.deliveries.get 1).map (fun d =>
      (d.eventKey, d.status, d.lastError)) = some (.claim 1 dayReminder.2.1, .sent, none) := by
    decide +kernel
  obtain ⟨d, hd, hrow⟩ := Option.map_eq_some_iff.mp hrow
  simp only [Prod.mk.injEq] at hrow
  obtain ⟨hkey, hstatus, hnone⟩ := hrow
  have hsent : d.ReallySent := by
    refine ⟨hstatus, ?_⟩
    rw [hnone]
    rintro ⟨_, hskipped⟩
    cases hskipped
  have hrun : (campus plainSite).Run openingCampus (openingCampus.trace reminded)
      (openingCampus.run reminded) := run_traceOf _ _ _ _
  obtain ⟨_, hrows, _, _, _, hreads⟩ :=
    reminders_follow_claim plainSite initial_openingCampus hrun 1 dayReminder_mem
  exact ⟨d, hd, hsent, hrows 1 d hd hkey, hreads 1 d hd hkey hsent⟩

/-- A slow first send is overtaken twice, and its answer comes last. -/
def overtaken : List Move :=
  [.lifecycle (.claim 7 1 1 (some 1)) plainRender, .tick (hours 144), .attempt (.claim 0 1),
    .attempt (.dispatch 0), .tick (hours 144 + seconds 900), .attempt (.claim 1 1),
    .attempt (.dispatch 1), .attempt (.reply 1 (.temporary [])), .attempt (.finalize 1 true),
    .tick (hours 144 + seconds 1200), .attempt (.claim 2 1), .attempt (.reply 0 (.temporary []))]

/-- The retry of a send that has been overtaken takes its row back. -/
theorem overtaken_retry_moves_back :
    ¬ ∀ (site : Site) (c₀ c : Campus) (l : List (Campus × Move × Campus)), c₀.Initial →
      (campus site).Run c₀ l c → ∀ (k : ClaimId) (spec : NotificationEventType × Text × Duration),
        spec ∈ reminderSpecs → ∀ c₁ m c₂, (c₁, m, c₂) ∈ l → ∀ i d d',
          c₁.world.db.deliveries.get i = some d → c₂.world.db.deliveries.get i = some d' →
            d.eventKey = .claim k spec.2.1 → d.scheduledAt ≤ d'.scheduledAt := by
  intro h
  let last : Move := .attempt (.finalize 0 true)
  have hrun : (campus plainSite).Run openingCampus
      (openingCampus.trace overtaken ++
        [(openingCampus.run overtaken, last, (openingCampus.run overtaken).perform plainSite last)])
      ((openingCampus.run overtaken).perform plainSite last) :=
    .snoc (run_traceOf _ _ _ _) rfl
  have hbefore : ((openingCampus.run overtaken).world.db.deliveries.get 1).map (fun d =>
      (d.eventKey, d.scheduledAt)) =
        some (.claim 1 dayReminder.2.1, hours 144 + seconds 1200) := by decide +kernel
  have hbehind : (((openingCampus.run overtaken).perform plainSite
      (.attempt (.finalize 0 true))).world.db.deliveries.get 1).map (·.scheduledAt) =
        some (hours 144 + seconds 60) := by decide +kernel
  obtain ⟨d, hd, hbefore⟩ := Option.map_eq_some_iff.mp hbefore
  obtain ⟨d', hd', hbehind⟩ := Option.map_eq_some_iff.mp hbehind
  simp only [Prod.mk.injEq] at hbefore
  have hle := h plainSite openingCampus _ _ initial_openingCampus hrun 1 dayReminder
    dayReminder_mem _ last _ (List.mem_append_right _ (List.mem_singleton_self _)) 1 d d' hd hd'
    hbefore.1
  rw [hbefore.2, hbehind] at hle
  exact absurd hle (by decide)

end Scenario

end CampusQuest.Notifications
