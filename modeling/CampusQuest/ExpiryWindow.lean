import CampusQuest.ClaimInvariants

/-!
The submission window and the expiry of a claim. The upload gate, the expiry service and the
scan of the expiry job read the same boundary from the claim's two deadlines; they agree
because a claim that is CLAIMED has no revision deadline and one that is REVISION_REQUIRED
has one that is not before the grace deadline.
-/

namespace CampusQuest.Lifecycle

open Tables Runs System

def scanBatchLimit : ℕ := 500

def AssignmentClaim.dueForScan (c : AssignmentClaim) (now : Instant) : Prop :=
  c.status.expiryActionable = true ∧ c.graceDeadlineAt ≤ now ∧
    (c.revisionDeadlineAt = none ∨ ∃ d ∈ c.revisionDeadlineAt, d ≤ now)

instance (c : AssignmentClaim) (now : Instant) : Decidable (c.dueForScan now) :=
  inferInstanceAs (Decidable (_ ∧ _ ∧ (_ ∨ _)))

/-- `collect_due_claim_ids`: grace order, then by id. -/
def collectDueClaimIds (db : Db) (now : Instant) (limit : ℕ) : List ClaimId :=
  ((db.claims.scan (fun _ c => c.dueForScan now) (·.graceDeadlineAt)).take limit).map Prod.fst

/-- The expiry service has found the claim actionable and past its effective deadline. -/
def ExpiryOutcome.due : ExpiryOutcome → Bool
  | .expired | .validSubmission => true
  | _ => false

structure Windowed (c : AssignmentClaim) : Prop where
  claimed : c.status = .claimed → c.revisionDeadlineAt = none
  revision : c.status = .revisionRequired → c.revisionDeadlineAt ≠ none
  grace : ∀ d, c.revisionDeadlineAt = some d → c.graceDeadlineAt ≤ d

section Deadlines

variable {s : State} {db db' : Db} {op : Op} {k : ClaimId} {c c' : AssignmentClaim} {now : Instant}

theorem effectiveExpiryDeadline_le :
    effectiveExpiryDeadline c ≤ now ↔
      c.graceDeadlineAt ≤ now ∧ (c.revisionDeadlineAt = none ∨ ∃ d ∈ c.revisionDeadlineAt, d ≤ now) := by
  unfold effectiveExpiryDeadline
  cases c.revisionDeadlineAt with
  | none => simp
  | some d => simp

/-- The four answers that the expiry ladder gives for a claim that is there. -/
theorem expireClaimIfDue_outcome (hc : db.claims.get k = some c) :
    (expireClaimIfDue db k now).1.outcome =
      if c.status.terminal = true then .alreadyTerminal
      else if c.status.expiryActionable = false then .protectedClaim
      else if now < effectiveExpiryDeadline c then .notDue
      else if hasValidSubmission db c = true then .validSubmission
      else .expired := by
  unfold expireClaimIfDue
  simp only [hc]
  split_ifs <;> rfl

theorem terminal_of_actionable {status : ClaimStatus} (h : status.expiryActionable = true) :
    status.terminal = false := by
  cases status <;> first | rfl | cases h

theorem expireClaimIfDue_due (hc : db.claims.get k = some c) :
    (expireClaimIfDue db k now).1.outcome.due = true ↔
      c.status.expiryActionable = true ∧ effectiveExpiryDeadline c ≤ now := by
  rw [expireClaimIfDue_outcome hc]
  cases hactionable : c.status.expiryActionable with
  | false =>
    rw [if_pos rfl]
    split <;> simp [ExpiryOutcome.due]
  | true =>
    rw [terminal_of_actionable hactionable]
    by_cases hdue : now < effectiveExpiryDeadline c
    · simp [hdue, ExpiryOutcome.due]
    · have hle := not_lt.mp hdue
      simp only [Bool.false_eq_true, if_false, Bool.true_eq_false, hdue, hle, and_self, iff_true]
      split <;> rfl

theorem expireClaimIfDue_notDue (hc : db.claims.get k = some c)
    (hactionable : c.status.actionable = true) :
    (expireClaimIfDue db k now).1.outcome = .notDue ↔ now < effectiveExpiryDeadline c := by
  have hexpiry : c.status.expiryActionable = true := hactionable
  rw [expireClaimIfDue_outcome hc, terminal_of_actionable hexpiry, hexpiry]
  by_cases hdue : now < effectiveExpiryDeadline c
  · simp [hdue]
  · simp only [Bool.false_eq_true, if_false, Bool.true_eq_false, hdue, iff_false]
    split <;> exact fun h => by cases h

/-- The scan's query and the service's ladder judge a row alike. -/
theorem dueForScan_iff (hc : db.claims.get k = some c) :
    c.dueForScan now ↔ (expireClaimIfDue db k now).1.outcome.due = true := by
  rw [expireClaimIfDue_due hc, effectiveExpiryDeadline_le]
  rfl

/-- On an actionable claim the upload gate closes when the claim becomes expirable. -/
theorem window_iff (hw : Windowed c) (hactionable : c.status.actionable = true) :
    submissionWindowOpen c now = true ↔ now < effectiveExpiryDeadline c := by
  unfold submissionWindowOpen effectiveExpiryDeadline
  by_cases hrevision : c.status = .revisionRequired
  · obtain ⟨d, hd⟩ := Option.ne_none_iff_exists'.mp (hw.revision hrevision)
    simp [hrevision, hd, max_eq_right (hw.grace d hd)]
  · have hclaimed : c.status = .claimed := by
      cases hstatus : c.status <;> rw [hstatus] at hactionable hrevision <;>
        first | rfl | exact absurd rfl hrevision | cases hactionable
    simp [hclaimed, hw.claimed hclaimed]

@[simp] theorem entered_revisionDeadlineAt :
    c.entered.revisionDeadlineAt = c.revisionDeadlineAt := by
  unfold AssignmentClaim.entered
  split <;> rfl

@[simp] theorem bumpLatest_revisionDeadlineAt {id : SubmissionId} {r : Submission} :
    (bumpLatest db c id r).revisionDeadlineAt = c.revisionDeadlineAt := by
  rcases bumpLatest_cases db c id r with h | ⟨h, _⟩
  · rw [h]
  · rw [h]
    rfl

theorem establishLock_revisionDeadlineAt {locked : AssignmentClaim} {id : SubmissionId}
    {r : Submission} {rows : List RewardLockHistory}
    (h : establishLock k c id r = .ok (locked, rows)) :
    locked.revisionDeadlineAt = c.revisionDeadlineAt := by
  rcases establishLock_cases h with ⟨_, rfl⟩ | ⟨_, _, rfl⟩ <;> rfl

/-- Only a review moves the revision deadline, and not to an earlier instant. -/
theorem ClaimMove.revision (h : ClaimMove s db' op k c c') :
    c'.revisionDeadlineAt = c.revisionDeadlineAt ∨
      (c'.status = .revisionRequired ∧ c'.revisionDeadlineAt = some (revisionDeadline c s.now)) := by
  cases h with
  | same | ended | finalized | validating | restored | approved => exact Or.inl rfl
  | locked id row _ locked rows _ _ _ hlocked _ =>
    rw [bumpLatest_revisionDeadlineAt, entered_revisionDeadlineAt]
    exact Or.inl (establishLock_revisionDeadlineAt hlocked)
  | returned | unlocked => exact Or.inr ⟨rfl, rfl⟩

theorem grace_le_revisionDeadline (hw : Windowed c) (now : Instant) :
    c.graceDeadlineAt ≤ revisionDeadline c now := by
  unfold revisionDeadline
  refine le_max_of_le_left ?_
  cases hd : c.revisionDeadlineAt with
  | none => exact le_rfl
  | some d => exact hw.grace d hd

theorem ClaimMove.windowed (h : ClaimMove s db' op k c c') (hw : Windowed c) : Windowed c' := by
  have hgrace : ∀ d, c'.revisionDeadlineAt = some d → c'.graceDeadlineAt ≤ d := by
    intro d hd
    rw [h.sameClaim.graceDeadlineAt]
    rcases h.revision with hsame | ⟨_, hreturned⟩
    · exact hw.grace d (hsame.symm.trans hd)
    · rw [hreturned] at hd
      cases hd
      exact grace_le_revisionDeadline hw s.now
  have hother : c'.status ≠ .claimed → c'.status ≠ .revisionRequired → Windowed c' :=
    fun hclaimed hrevision => ⟨fun h => absurd h hclaimed, fun h => absurd h hrevision, hgrace⟩
  cases h with
  | same => exact hw
  | ended _ _ _ status _ _ _ hstatus =>
    refine hother (fun heq => ?_) fun heq => ?_
    · have heq : status = .claimed := heq
      rw [heq] at hstatus
      cases hstatus
    · have heq : status = .revisionRequired := heq
      rw [heq] at hstatus
      cases hstatus
  | finalized => exact ⟨hw.claimed, hw.revision, hgrace⟩
  | validating => exact hother (fun h => by cases h) fun h => by cases h
  | restored _ _ _ _ _ _ status _ _ _ _ hstatus =>
    refine ⟨fun heq => ?_, fun heq => ?_, hgrace⟩
    · have heq : status = .claimed := heq
      rw [heq] at hstatus
      change c.revisionDeadlineAt = none
      cases hd : c.revisionDeadlineAt with
      | none => rfl
      | some d =>
        rw [hd] at hstatus
        cases hstatus
    · have heq : status = .revisionRequired := heq
      rw [heq] at hstatus
      change c.revisionDeadlineAt ≠ none
      intro hd
      rw [hd] at hstatus
      cases hstatus
  | locked id row _ locked rows _ _ hactive hlocked _ =>
    have hstatus := locked_status (s := s) hactive hlocked
    exact hother (fun h => by rw [hstatus] at h; cases h) fun h => by rw [hstatus] at h; cases h
  | returned => exact ⟨fun h => (by cases h), fun _ h => (by cases h), hgrace⟩
  | unlocked => exact ⟨fun h => (by cases h), fun _ h => (by cases h), hgrace⟩
  | approved => exact hother (fun h => by cases h) fun h => by cases h

theorem windowed_reach (hs : lifecycle.Reach s) (hc : s.db.claims.get k = some c) : Windowed c := by
  have hinductive : lifecycle.Inductive fun s =>
      ∀ k c, s.db.claims.get k = some c → Windowed c := by
    constructor
    · intro s hinit k c hc
      rw [hinit.claims, Table.get_empty] at hc
      cases hc
    · rintro s op _ hold rfl k c' hc'
      rcases claim_step hc' with hmade | ⟨c, hc, hmove⟩
      · cases hmade
        exact ⟨fun _ => rfl, fun h => (by cases h), fun d hd => (by cases hd)⟩
      · exact hmove.windowed (hold k c hc)
  exact hinductive.reach hs k c hc

/-- What a claim's deadlines look like later in a run. -/
structure Extends (c c' : AssignmentClaim) : Prop where
  grace : c'.graceDeadlineAt = c.graceDeadlineAt
  revision : ∀ d, c.revisionDeadlineAt = some d → ∃ d', c'.revisionDeadlineAt = some d' ∧ d ≤ d'

theorem ClaimMove.extends (h : ClaimMove s db' op k c c') : Extends c c' := by
  refine ⟨h.sameClaim.graceDeadlineAt, fun d hd => ?_⟩
  rcases h.revision with hsame | ⟨_, hreturned⟩
  · exact ⟨d, hsame.trans hd, le_rfl⟩
  · refine ⟨_, hreturned, ?_⟩
    unfold revisionDeadline
    rw [hd]
    exact le_max_left d _

theorem extends_run {s' : State} {l : List (State × Op × State)} (hs : lifecycle.Reach s)
    (hrun : lifecycle.Run s l s') (hc : s.db.claims.get k = some c) :
    ∃ c', s'.db.claims.get k = some c' ∧ Extends c c' := by
  have hstart : ∃ c', s.db.claims.get k = some c' ∧ Extends c c' :=
    ⟨c, hc, rfl, fun d hd => ⟨d, hd, le_rfl⟩⟩
  refine hrun.keeps (P := fun s => ∃ c', s.db.claims.get k = some c' ∧ Extends c c') ?_ hs hstart
  rintro u op _ _ ⟨c₁, hc₁, hold⟩ rfl
  obtain ⟨c₂, hc₂, hmove⟩ := (apply_effect u op).claim_move hc₁
  refine ⟨c₂, hc₂, hmove.extends.grace.trans hold.grace, fun d hd => ?_⟩
  obtain ⟨d₁, hd₁, hle⟩ := hold.revision d hd
  obtain ⟨d₂, hd₂, hle'⟩ := hmove.extends.revision d₁ hd₁
  exact ⟨d₂, hd₂, hle.trans hle'⟩

end Deadlines

/-- The submission window and the expiry agree. For a reachable actionable claim, at every
instant, the upload gate is open exactly while the expiry service answers NOT_DUE; the scan
lists nothing but claims that the service then finds due, and all of them when its batch is
large enough; and along every run the grace deadline stays, the revision deadline never
moves to an earlier instant, and it is never before the grace deadline. -/
theorem submission_window_agrees :
    (∀ s, lifecycle.Reach s → ∀ k c now, s.db.claims.get k = some c →
      c.status.actionable = true →
        (submissionWindowOpen c now = true ↔ (expireClaimIfDue s.db k now).1.outcome = .notDue) ∧
        (submissionWindowOpen c now = true ↔ ¬ effectiveExpiryDeadline c ≤ now)) ∧
    (∀ db now k, ((∃ c, db.claims.get k = some c ∧ c.dueForScan now) ↔
        (expireClaimIfDue db k now).1.outcome.due = true) ∧
      ∀ limit, (k ∈ collectDueClaimIds db now limit →
          (expireClaimIfDue db k now).1.outcome.due = true) ∧
        (db.claims.keys.card ≤ limit → (expireClaimIfDue db k now).1.outcome.due = true →
          k ∈ collectDueClaimIds db now limit)) ∧
    ∀ s l s', lifecycle.Reach s → lifecycle.Run s l s' → ∀ k c, s.db.claims.get k = some c →
      ∃ c', s'.db.claims.get k = some c' ∧ c'.graceDeadlineAt = c.graceDeadlineAt ∧
        (∀ d, c.revisionDeadlineAt = some d → ∃ d', c'.revisionDeadlineAt = some d' ∧ d ≤ d') ∧
        ∀ d', c'.revisionDeadlineAt = some d' → c'.graceDeadlineAt ≤ d' := by
  have hscan : ∀ db now k, (∃ c, db.claims.get k = some c ∧ c.dueForScan now) ↔
      (expireClaimIfDue db k now).1.outcome.due = true := by
    intro db now k
    constructor
    · rintro ⟨c, hc, hdue⟩
      exact (dueForScan_iff hc).mp hdue
    · intro hdue
      cases hc : db.claims.get k with
      | none =>
        unfold expireClaimIfDue at hdue
        rw [hc] at hdue
        cases hdue
      | some c => exact ⟨c, rfl, (dueForScan_iff hc).mpr hdue⟩
  refine ⟨fun s hs k c now hc hactionable => ?_, fun db now k => ⟨hscan db now k, fun limit => ⟨?_, ?_⟩⟩,
    fun s l s' hs hrun k c hc => ?_⟩
  · have hwindow : submissionWindowOpen c now = true ↔ now < effectiveExpiryDeadline c :=
      window_iff (windowed_reach hs hc) hactionable
    exact ⟨hwindow.trans (expireClaimIfDue_notDue hc hactionable).symm, hwindow.trans not_le.symm⟩
  · intro hmem
    obtain ⟨⟨k', c⟩, hrow, rfl⟩ := List.mem_map.mp hmem
    exact (hscan db now k').mp ⟨c, Table.mem_scan.mp (List.mem_of_mem_take hrow)⟩
  · intro hlimit hdue
    obtain ⟨c, hc, hselected⟩ := (hscan db now k).mpr hdue
    refine List.mem_map.mpr ⟨(k, c), ?_, rfl⟩
    rw [List.take_of_length_le (Table.length_scan_le.trans hlimit)]
    exact Table.mem_scan.mpr ⟨hc, hselected⟩
  · obtain ⟨c', hc', hextends⟩ := extends_run hs hrun hc
    exact ⟨c', hc', hextends.grace, hextends.revision, (windowed_reach (hrun.reach hs) hc').grace⟩

end CampusQuest.Lifecycle
