import CampusQuest.DeliveryFacts

/-!
Whose claim a finalize meets. The second transaction of a send writes a row that is SENDING
under its own claim or under a later one: nothing but the counter tells the two apart, and
nobody compares it. A send that is not overtaken writes its own claim only.
-/

namespace CampusQuest.Notifications

open Tables Runs System

def World.Holds (w : World) (s : Sending) : Prop :=
  ∃ d, w.db.deliveries.get s.claim.deliveryId = some d ∧ d.status = .sending ∧
    d.attempts = s.claim.attempts

def World.Rewrites (w : World) (settings : DeliverySettings) (k : CallId) (current : Bool)
    (id : DeliveryId) : Prop :=
  (w.perform settings (.finalize k current)).db.deliveries.get id ≠ w.db.deliveries.get id

section Finalize

variable {settings : DeliverySettings} {w : World} {k : CallId} {current : Bool} {s : Sending}
  {id : DeliveryId}

/-- What the finalize of a send leaves in the table. -/
theorem finalize_rows (settings : DeliverySettings) (hs : w.sends.get k = some s)
    (current : Bool) :
    (w.perform settings (.finalize k current)).db.deliveries = w.db.deliveries ∨
    ∃ d f, w.db.deliveries.get s.claim.deliveryId = some d ∧ d.status = .sending ∧
      (w.perform settings (.finalize k current)).db.deliveries =
        w.db.deliveries.put s.claim.deliveryId (d.settle s.now f) := by
  change (w.finalize settings k current).db.deliveries = _ ∨ ∃ d f, _ ∧ _ ∧
    (w.finalize settings k current).db.deliveries = _
  unfold World.finalize
  simp only [hs]
  split
  next => exact Or.inl rfl
  next f hf =>
    rcases finalize_cases w.db s.claim.deliveryId s.now f current with hsame | ⟨d, hd, hsending, hput⟩
    · refine Or.inl ?_
      change (w.written s f current).deliveries = _
      rw [World.written, hsame]
    · exact Or.inr ⟨d, f.judge current, hd, hsending, hput⟩

/-- A finalize changes no row but its own, and that one only while it is SENDING. -/
theorem rewrites_sending (hs : w.sends.get k = some s) (h : w.Rewrites settings k current id) :
    id = s.claim.deliveryId ∧ ∃ d, w.db.deliveries.get id = some d ∧ d.status = .sending := by
  unfold World.Rewrites at h
  rcases finalize_rows settings hs current with hsame | ⟨d, f, hd, hsending, hput⟩
  · rw [hsame] at h
    exact absurd rfl h
  · rw [hput] at h
    by_cases hid : id = s.claim.deliveryId
    · subst hid
      exact ⟨rfl, d, hd, hsending⟩
    · exact absurd (Table.get_put_of_ne _ _ hid) h

/-- The claim that a finalize finds is its own or a later one. -/
theorem claim_le (hw : (delivery settings).Reach w) (hs : w.sends.get k = some s)
    {d : NotificationDelivery} (hd : w.db.deliveries.get s.claim.deliveryId = some d) :
    s.claim.attempts ≤ d.attempts := by
  have hle := ((epochs_sound hw).held k _ (epochs_holding hs)).2
  exact hle.trans_eq (attemptsOf_eq hd)

/-- While rows are claimed only when nobody is at work on them, every send under way is the
last that claimed its row. -/
theorem current_reach (hw : ((delivery settings).guarded World.Unhurried).Reach w) :
    Epochs.Current w.epochs := by
  induction hw with
  | init hinit =>
    intro k h hget
    have hnone := ((refines_epochs settings).init _ hinit).holding k
    rw [hget] at hnone
    cases hnone
  | @step u u' a _ hstep ih =>
    obtain ⟨hperform, hquiet⟩ := hstep
    obtain rfl : u' = u.perform settings a := hperform
    rcases deed_epochs (perform_deed settings u a) with hsame | ⟨e, hnext, hvacant⟩
    · rw [hsame]
      exact ih
    · exact Epochs.current_step ih hnext (hvacant hquiet)

/-- What a provider has accepted under the claim that the row holds is recorded for good. -/
theorem accepted_sent (hw : (delivery settings).Reach w) (hs : w.sends.get k = some s)
    {receipt : Option Text} (hphase : s.phase = .replied (.accepted receipt)) (hown : w.Holds s)
    {l : List (World × Act × World)} {w' : World}
    (hrun : (delivery settings).Run (w.perform settings (.finalize k current)) l w') :
    ∃ d, w'.db.deliveries.get s.claim.deliveryId = some d ∧ d.status = .sent ∧
      d.providerMessageId = receipt ∧ d.sentAt = some s.now := by
  obtain ⟨d, hd, hsending, _⟩ := hown
  have hf : s.finalization settings = some (onReply settings s.claim s.now (.accepted receipt)) := by
    unfold Sending.finalization
    rw [hphase]
  have hget : (w.perform settings (.finalize k current)).db.deliveries.get s.claim.deliveryId =
      some (d.settle s.now (onReply settings s.claim s.now (.accepted receipt))) := by
    change (w.finalize settings k current).db.deliveries.get _ = _
    unfold World.finalize
    simp only [hs, hf]
    exact finalize_of_sending hd hsending _ current
  have hreach : (delivery settings).Reach (w.perform settings (.finalize k current)) :=
    .step hw rfl
  exact ⟨_, terminal_run hreach hrun hget rfl, rfl, rfl, rfl⟩

end Finalize

/-- Finalize is gated by the status. In every interleaving a finalize changes its own row
only, and only while that row is SENDING, under its own claim or a later one; a SENT or
FAILED row stays as it is for ever; and a send whose claim the row holds, once the provider
has accepted it, leaves the row SENT for good. In every run in which a row is claimed only
while no send is under way on it, the claim that a finalize overwrites is its own. -/
theorem finalize_ownership (settings : DeliverySettings) :
    (∀ w, (delivery settings).Reach w → ∀ k current s id, w.sends.get k = some s →
      w.Rewrites settings k current id → id = s.claim.deliveryId ∧
        ∃ d, w.db.deliveries.get id = some d ∧ d.status = .sending ∧
          s.claim.attempts ≤ d.attempts) ∧
    (∀ w l w', (delivery settings).Reach w → (delivery settings).Run w l w' → ∀ id d,
      w.db.deliveries.get id = some d → d.status.terminal = true →
        w'.db.deliveries.get id = some d) ∧
    (∀ w, (delivery settings).Reach w → ∀ k current s receipt, w.sends.get k = some s →
      s.phase = .replied (.accepted receipt) → w.Holds s → ∀ l w',
        (delivery settings).Run (w.perform settings (.finalize k current)) l w' →
          ∃ d, w'.db.deliveries.get s.claim.deliveryId = some d ∧ d.status = .sent ∧
            d.providerMessageId = receipt ∧ d.sentAt = some s.now) ∧
    ∀ w, ((delivery settings).guarded World.Unhurried).Reach w → ∀ k current s id,
      w.sends.get k = some s → w.Rewrites settings k current id → w.Holds s := by
  refine ⟨fun w hw k current s id hs h => ?_, fun w l w' hw hrun id d hd hterminal => ?_,
    fun w hw k current s receipt hs hphase hown l w' hrun => ?_, fun w hw k current s id hs h => ?_⟩
  · obtain ⟨rfl, d, hd, hsending⟩ := rewrites_sending hs h
    exact ⟨rfl, d, hd, hsending, claim_le hw hs hd⟩
  · exact terminal_run hw hrun hd hterminal
  · exact accepted_sent hw hs hphase hown hrun
  · obtain ⟨rfl, d, hd, hsending⟩ := rewrites_sending hs h
    have hcurrent := current_reach hw k _ (epochs_holding hs)
    exact ⟨d, hd, hsending, (attemptsOf_eq hd).symm.trans hcurrent.symm⟩

section Scenario

def emptyWorld : World := ⟨⟨.empty, .empty, .empty⟩, .empty, []⟩

def World.run (settings : DeliverySettings) (w : World) (acts : List Act) : World :=
  acts.foldl (World.perform settings) w

def World.trace (settings : DeliverySettings) (w : World) (acts : List Act) :
    List (World × Act × World) := traceOf (World.perform settings) w acts

theorem World.run_trace (settings : DeliverySettings) (w : World) (acts : List Act) :
    (delivery settings).Run w (w.trace settings acts) (w.run settings acts) :=
  run_traceOf World.Initial (World.perform settings) w acts

theorem initial_emptyWorld : emptyWorld.Initial := ⟨rfl, rfl, rfl⟩

theorem reach_run (settings : DeliverySettings) (acts : List Act) :
    (delivery settings).Reach (emptyWorld.run settings acts) :=
  (World.run_trace settings emptyWorld acts).reach (.init initial_emptyWorld)

def registration : List Act :=
  [.setUser 1 ⟨.active, some ['1'], none, none⟩, .notify 1 ⟨.submissionApproved, [], [], none⟩,
    .register 1 1 1 (.other []) .sms 0 0]

def claimAndCall (k : CallId) (now : Instant) : List Act :=
  [.claim k 1 now, .dispatch k fun _ => none]

/-- A slow send is overtaken; the provider accepts the second message and then refuses the
first one. -/
def takeover : List Act :=
  registration ++ claimAndCall 0 0 ++ claimAndCall 1 (seconds 900) ++
    [.reply 1 (.accepted none), .reply 0 (.permanent [])]

/-- The overtaken send writes its failure over the live claim, and the row ends FAILED
although the provider has accepted the send that held it. -/
theorem overtaken_finalize_writes : ∃ w a b, (delivery .default).Reach w ∧
    w.sends.get 0 = some a ∧ w.sends.get 1 = some b ∧ w.Rewrites .default 0 true 1 ∧
    ¬ w.Holds a ∧ w.Holds b ∧ b.phase = .replied (.accepted none) ∧
    (((w.perform .default (.finalize 0 true)).perform .default
      (.finalize 1 true)).db.deliveries.get 1).map (·.status) = some .failed := by
  have hslow : ((emptyWorld.run .default takeover).sends.get 0).map (fun s =>
      (s.claim.deliveryId, s.claim.attempts)) = some (1, 1) := by decide +kernel
  have hlive : ((emptyWorld.run .default takeover).sends.get 1).map (fun s =>
      (s.claim.deliveryId, s.claim.attempts, s.phase)) =
        some (1, 2, .replied (.accepted none)) := by decide +kernel
  have hrow : ((emptyWorld.run .default takeover).db.deliveries.get 1).map (fun d =>
      (d.status, d.attempts)) = some (.sending, 2) := by decide +kernel
  obtain ⟨a, ha, hslow⟩ := Option.map_eq_some_iff.mp hslow
  obtain ⟨b, hb, hlive⟩ := Option.map_eq_some_iff.mp hlive
  obtain ⟨d, hd, hrow⟩ := Option.map_eq_some_iff.mp hrow
  simp only [Prod.mk.injEq] at hslow hlive hrow
  refine ⟨emptyWorld.run .default takeover, a, b, reach_run .default takeover, ha, hb,
    by unfold World.Rewrites; decide +kernel, ?_, ?_, hlive.2.2, by decide +kernel⟩
  · rintro ⟨x, hx, _, hnumber⟩
    rw [hslow.1, hd] at hx
    cases hx
    rw [hrow.2, hslow.2] at hnumber
    cases hnumber
  · refine ⟨d, ?_, hrow.1, hrow.2.trans hlive.2.1.symm⟩
    rw [hlive.1]
    exact hd

end Scenario

end CampusQuest.Notifications
