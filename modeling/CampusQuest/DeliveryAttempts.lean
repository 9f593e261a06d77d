import CampusQuest.DeliveryOwnership

/-!
How often a delivery is attempted. The counter moves when a row is claimed and is compared
with the ceiling only when a failing send is finalized, so the ceiling binds as long as the
last permitted attempt is not given up: it is not claimed anew, not recovered, and not
rescheduled by a send that was overtaken.
-/

namespace CampusQuest.Notifications

open Tables Runs System

/-- The provider's answer asks for another attempt, and the send's own number allows one. -/
def Sending.retries (s : Sending) (settings : DeliverySettings) : Bool :=
  match s.phase with
  | .replied (.temporary _) | .replied (.unknownOutcome _) =>
    s.claim.attempts < settings.maxAttempts
  | _ => false

/-- The act gives up no attempt whose number has reached the ceiling: no such SENDING row is
claimed anew or recovered, and no overtaken send reschedules it. -/
def World.KeepsLastAttempt (settings : DeliverySettings) (w : World) : Act → Prop
  | .claim _ id now => ∀ d ∈ w.db.deliveries.get id, d.status = .sending → ¬ d.live settings now →
      d.attempts < settings.maxAttempts
  | .recover now => ∀ id ∈ stuckSending w.db settings now, ∀ d ∈ w.db.deliveries.get id,
      d.attempts < settings.maxAttempts
  | .finalize k _ => ∀ s ∈ w.sends.get k, ∀ d ∈ w.db.deliveries.get s.claim.deliveryId,
      d.status = .sending → s.claim.attempts < d.attempts → s.retries settings = true →
        d.attempts < settings.maxAttempts
  | _ => True

instance (settings : DeliverySettings) (w : World) (a : Act) :
    Decidable (w.KeepsLastAttempt settings a) :=
  match a with
  | .claim _ id now => inferInstanceAs (Decidable (∀ d ∈ w.db.deliveries.get id,
      d.status = .sending → ¬ d.live settings now → d.attempts < settings.maxAttempts))
  | .recover now => inferInstanceAs (Decidable (∀ id ∈ stuckSending w.db settings now,
      ∀ d ∈ w.db.deliveries.get id, d.attempts < settings.maxAttempts))
  | .finalize k _ => inferInstanceAs (Decidable (∀ s ∈ w.sends.get k,
      ∀ d ∈ w.db.deliveries.get s.claim.deliveryId, d.status = .sending →
        s.claim.attempts < d.attempts → s.retries settings = true →
          d.attempts < settings.maxAttempts))
  | .setUser .. | .notify .. | .register .. | .dispatch .. | .reply .. | .crash .. |
    .forceFail .. => inferInstanceAs (Decidable True)

/-- No counter is above the ceiling, and a row that waits for an attempt is below it. -/
def Bounded (settings : DeliverySettings) (w : World) : Prop :=
  ∀ id d, w.db.deliveries.get id = some d → d.attempts ≤ settings.maxAttempts ∧
    (d.status ≠ .sending → d.status.terminal = false → d.attempts < settings.maxAttempts)

def ResolvedSent (w : World) : Prop :=
  ∀ k s f, w.sends.get k = some s → s.phase = .resolved f → f.status = .sent

section Steps

variable {settings : DeliverySettings} {w w' : World} {a : Act}

theorem resolvedSent_inductive (settings : DeliverySettings) :
    (delivery settings).Inductive ResolvedSent := by
  constructor
  · intro w hw k s f hs
    rw [hw.sends, Table.get_empty] at hs
    cases hs
  · rintro w a _ hold rfl
    have hput : ∀ {k x}, (∀ f, x.phase = .resolved f → f.status = .sent) →
        ∀ j s f, (w.sends.put k x).get j = some s → s.phase = .resolved f → f.status = .sent := by
      intro k x hx j s f hs hphase
      rcases Table.get_put_eq_some hs with ⟨_, rfl⟩ | ⟨_, hs⟩
      · exact hx f hphase
      · exact hold j s f hs hphase
    have hremove : ∀ {k}, ∀ j s f, (w.sends.remove k).get j = some s → s.phase = .resolved f →
        f.status = .sent :=
      fun j s f hs hphase => hold j s f (Table.get_of_remove hs) hphase
    generalize hw' : w.perform settings a = w'
    have hdeed := perform_deed settings w a
    rw [hw'] at hdeed
    cases hdeed with
    | idle | outside | registered | recovered | failed => exact hold
    | claimed | requested | replied => exact hput fun f hf => by cases hf
    | resolved _ _ _ f _ _ hsent =>
      refine hput fun f' hf' => ?_
      cases hf'
      exact hsent
    | finalized | dropped => exact hremove

theorem onReply_status (settings : DeliverySettings) (c : Claim) (now : Instant) (r : Reply) :
    (onReply settings c now r).status.terminal = true ∨
      ((onReply settings c now r).status = .retryable ∧ c.attempts < settings.maxAttempts ∧
        ∃ e, r = .temporary e ∨ r = .unknownOutcome e) := by
  have hretry : ∀ e, (retryOrFail settings c now e).status.terminal = true ∨
      ((retryOrFail settings c now e).status = .retryable ∧ c.attempts < settings.maxAttempts) := by
    intro e
    unfold retryOrFail
    split
    next => exact Or.inl rfl
    next hbelow => exact Or.inr ⟨rfl, not_le.mp hbelow⟩
  cases r with
  | accepted receipt => exact Or.inl rfl
  | permanent e => exact Or.inl rfl
  | unknownOutcome e =>
    rcases hretry ("unknown_outcome:".toList ++ e) with hterminal | ⟨hstatus, hbelow⟩
    · exact Or.inl hterminal
    · exact Or.inr ⟨hstatus, hbelow, e, Or.inr rfl⟩
  | temporary e =>
    rcases hretry ("temporary:".toList ++ e) with hterminal | ⟨hstatus, hbelow⟩
    · exact Or.inl hterminal
    · exact Or.inr ⟨hstatus, hbelow, e, Or.inl rfl⟩

/-- A send ends its row unless it asks for a retry. -/
theorem finalization_status (hresolved : ResolvedSent w) {k : CallId} {s : Sending}
    {f : Finalization} (hs : w.sends.get k = some s) (hf : s.finalization settings = some f) :
    f.status.terminal = true ∨
      (s.retries settings = true ∧ s.claim.attempts < settings.maxAttempts) := by
  unfold Sending.finalization at hf
  cases hphase : s.phase with
  | claimed | calling =>
    rw [hphase] at hf
    cases hf
  | resolved f' =>
    rw [hphase] at hf
    cases hf
    rw [hresolved k s f hs hphase]
    exact Or.inl rfl
  | replied r =>
    rw [hphase] at hf
    cases hf
    rcases onReply_status settings s.claim s.now r with hterminal | ⟨_, hbelow, e, hr⟩
    · exact Or.inl hterminal
    · refine Or.inr ⟨?_, hbelow⟩
      unfold Sending.retries
      rcases hr with rfl | rfl <;> simp [hphase, hbelow]

theorem bounded_step (hw : (delivery settings).Reach w) (hbounded : Bounded settings w)
    (hkeep : w.KeepsLastAttempt settings a) : Bounded settings (w.perform settings a) := by
  intro id d' hd'
  have hdeed := perform_deed settings w a
  cases hd : w.db.deliveries.get id with
  | none =>
    obtain ⟨_, hzero⟩ := hdeed.row_made hd hd'
    have hpos := settings.maxAttempts_pos
    rw [hzero]
    omega
  | some d =>
    obtain ⟨x, hx, hmove⟩ := hdeed.row_move hd
    rw [hd'] at hx
    cases hx
    obtain ⟨hle, hwaiting⟩ := hbounded id d hd
    cases hmove with
    | same => exact ⟨hle, hwaiting⟩
    | claimed k now ha hclaimable =>
      subst ha
      have hbelow : d.attempts < settings.maxAttempts := by
        by_cases hsending : d.status = .sending
        · exact hkeep d hd hsending hclaimable.notLive
        · exact hwaiting hsending hclaimable.open'
      exact ⟨hbelow, fun hnot => absurd rfl hnot⟩
    | settled k current s f ha hs hid hf hsending =>
      subst ha hid
      refine ⟨hle, fun _ hopen => ?_⟩
      change (f.judge current).status.terminal = false at hopen
      rw [judge_status] at hopen
      rcases finalization_status ((resolvedSent_inductive settings).reach hw) hs hf with
        hterminal | ⟨hretries, hbelow⟩
      · rw [hterminal] at hopen
        cases hopen
      · change d.attempts < settings.maxAttempts
        rcases (claim_le hw hs hd).eq_or_lt with hown | hovertaken
        · omega
        · exact hkeep s hs d hd hsending hovertaken hretries
    | recovered now ha hmem hsending =>
      subst ha
      exact ⟨hle, fun _ _ => hkeep id hmem d hd⟩
    | failed now reason hsending => exact ⟨hle, fun _ hopen => by cases hopen⟩

end Steps

/-- Deliveries are attempted a bounded number of times: in every run that gives up no last
attempt, no counter is above the ceiling in any state that is reached, and the provider is
called for no delivery more often than that. -/
theorem attempts_bounded (settings : DeliverySettings) (w : World)
    (hw : ((delivery settings).guarded (World.KeepsLastAttempt settings)).Reach w) :
    (∀ id d, w.db.deliveries.get id = some d → d.attempts ≤ settings.maxAttempts) ∧
    ∀ id, (w.requests.filter fun r => r.deliveryId = id).length ≤ settings.maxAttempts := by
  have hbounded : Bounded settings w := by
    induction hw with
    | init hinit =>
      intro id d hd
      rw [hinit.deliveries, Table.get_empty] at hd
      cases hd
    | step hu hstep ih =>
      obtain ⟨hperform, hkeep⟩ := hstep
      cases hperform
      exact bounded_step hu.of_guarded ih hkeep
  refine ⟨fun id d hd => (hbounded id d hd).1, fun id => ?_⟩
  have hcalls := (epochs_sound hw.of_guarded).calls_le id
  have hcount : (w.epochs.calls.filter fun c => c.1 = id).length =
      (w.requests.filter fun r => r.deliveryId = id).length := by
    change ((w.requests.map _).filter _).length = _
    rw [List.filter_map, List.length_map]
    rfl
  rw [hcount] at hcalls
  refine hcalls.trans ?_
  change w.db.attemptsOf id ≤ _
  cases hd : w.db.deliveries.get id with
  | none => simp [Db.attemptsOf, hd]
  | some d =>
    rw [attemptsOf_eq hd]
    exact (hbounded id d hd).1

section Scenario

def fails (k : CallId) (now : Instant) : List Act :=
  claimAndCall k now ++ [.reply k (.temporary []), .finalize k true]

def ladder : List Act :=
  registration ++ fails 0 0 ++ fails 1 (seconds 60) ++ fails 2 (seconds 360)

/-- The third failure is the last attempt. -/
theorem attempts_bounded_ladder :
    ((emptyWorld.run .default ladder).db.deliveries.get 1).map (fun d =>
      (d.status, d.attempts)) = some (.failed, 3) ∧
    ∀ id, ((emptyWorld.run .default ladder).requests.filter fun r => r.deliveryId = id).length ≤ 3 :=
  ⟨by decide +kernel, (attempts_bounded .default (emptyWorld.run .default ladder)
    (guarded_foldl (.init initial_emptyWorld) ladder (by decide +kernel))).2⟩

/-- A send that dies after its provider call, again and again. -/
def dies (k : CallId) (now : Instant) : List Act := claimAndCall k now ++ [.crash k]

/-- Senders that die are not counted by the ceiling: a fourth attempt is made, and the
provider is called a fourth time. -/
theorem crashes_exceed_ceiling : ∃ w, (delivery .default).Reach w ∧
    (w.db.deliveries.get 1).map (·.attempts) = some 4 ∧
    (w.requests.filter fun r => r.deliveryId = 1).length = 4 ∧
    ¬ 4 ≤ DeliverySettings.default.maxAttempts :=
  ⟨emptyWorld.run .default (registration ++ dies 0 0 ++ dies 1 (seconds 900) ++
      dies 2 (seconds 1800) ++ dies 3 (seconds 2700)),
    reach_run .default _, by decide +kernel, by decide +kernel, by decide⟩

end Scenario

end CampusQuest.Notifications
