import Mathlib.Data.Fintype.EquivFin
import CampusQuest.Redelivery
import CampusQuest.ValidationTwins
import CampusQuest.Occupancy

/-!
Claims that wait for the pipeline. A claim that is validating waits for its latest
submission to be validated and locked, and a claim under review waits for a reviewer of its
latest submission. Three steps look at another submission than the latest one; a run keeps
every claim movable exactly when they meet a condition.
-/

namespace CampusQuest.Lifecycle

open Tables Runs System

def Db.LatestIs (db : Db) (c : AssignmentClaim) (p : SubmissionId → Submission → Prop) : Prop :=
  ∃ l r, c.latestSubmissionId = some l ∧ db.submissions.get l = some r ∧ p l r

/-- The pipeline has still to work on the submission: it awaits its verdict, or it is
validated and awaits its lock. -/
def State.Awaited (s : State) (id : SubmissionId) (r : Submission) : Prop :=
  r.validationStatus.terminal = false ∨ (r.validationStatus = .validated ∧ id ∉ s.applied)

structure Unwedged (s : State) : Prop where
  validating : ∀ k c, s.db.claims.get k = some c → c.status = .validating →
    s.db.LatestIs c s.Awaited
  underReview : ∀ k c, s.db.claims.get k = some c → c.status = .underReview →
    s.db.LatestIs c fun _ r => r.validationStatus = .validated

/-- A start moves the claim only for its latest submission or while that one is awaited; a
failing run is not one of the submission under review; a lock step enters review only while
the latest submission is validated. -/
def KeepsUnwedged (s : State) : Op → Prop
  | .startValidation id run => ∀ r c, s.db.submissions.get id = some r →
      s.db.claims.get r.claimId = some c → r.validationStatus.terminal = false →
      s.db.runs.get run = none → c.status.actionable = true →
      s.db.unfinishedCleanups r.claimId = ∅ →
        s.db.LatestIs c fun l last => l = id ∨ s.Awaited l last
  | .finishValidation run report _ => report.verdict = .validationFailed →
      ∀ row r c, s.db.runs.get run = some row → row.finishedAt = none →
        s.db.submissions.get row.submissionId = some r → s.db.claims.get r.claimId = some c →
        c.latestSubmissionId = some row.submissionId → c.status ≠ .underReview
  | .onValidationPassed id => ∀ r c, s.db.submissions.get id = some r →
      s.db.claims.get r.claimId = some c → r.validationStatus = .validated →
      c.status.reviewEntry = true →
      (c.rewardLockStatus = .none → r.submittedAt < c.graceDeadlineAt) →
      s.db.unfinishedCleanups r.claimId = ∅ →
        s.db.LatestIs c fun _ last => last.validationStatus = .validated
  | _ => True

section Commits

variable {s : State} {id : SubmissionId} {run : RunId} {r : Submission} {c : AssignmentClaim}

/-- A start whose checks pass commits. -/
theorem apply_startValidation (hr : s.db.submissions.get id = some r)
    (hopen : r.validationStatus.terminal = false) (hfresh : s.db.runs.get run = none)
    (hguard : ¬ s.db.CleanupRefuses r.claimId) :
    (s.apply (.startValidation id run)).db = ((s.db.enterValidating r.claimId).putSubmission id
      (r.withStatus .validating)).putRun run (newRun id s.now) := by
  change (s.commit (startValidation s.db s.now id run)).db = _
  rw [startValidation_started.mpr ⟨rfl, hfresh, r, hr, hopen, hguard, rfl⟩]
  rfl

theorem apply_startValidation_moving (hr : s.db.submissions.get id = some r)
    (hopen : r.validationStatus.terminal = false) (hfresh : s.db.runs.get run = none)
    (hc : s.db.claims.get r.claimId = some c) (hactionable : c.status.actionable = true)
    (hguard : s.db.unfinishedCleanups r.claimId = ∅) :
    (s.apply (.startValidation id run)).db = ((s.db.putClaim r.claimId
      (c.withStatus .validating)).putSubmission id (r.withStatus .validating)).putRun run
        (newRun id s.now) := by
  have hpasses : ¬ s.db.CleanupRefuses r.claimId := by
    rintro ⟨_, _, _, hunfinished⟩
    exact hunfinished hguard
  rw [apply_startValidation hr hopen hfresh hpasses]
  unfold Db.enterValidating
  rw [hc]
  dsimp only
  rw [if_pos hactionable]

theorem apply_finishValidation_failed {row : SubmissionValidation} {report : ValidationReport}
    (detected : Option FileType) (hrun : s.db.runs.get run = some row)
    (hunfinished : row.finishedAt = none) (hr : s.db.submissions.get row.submissionId = some r)
    (hfailed : report.verdict = .validationFailed) :
    (s.apply (.finishValidation run report detected)).db = (restoreActionableClaim
      (s.db.putSubmission row.submissionId (r.finish report detected)) row.submissionId
        r.claimId).putRun run (row.finish report s.now) := by
  have hflight : s.unfinished run = true := by
    unfold State.unfinished
    rw [hrun, Option.any_some, hunfinished]
    rfl
  change (if s.unfinished run = true then
    s.commit (finishValidation s.db s.now run report detected) else s).db = _
  rw [if_pos hflight, finishValidation_ok.mpr ⟨row, r, hrun, hr, rfl, rfl⟩, if_pos hfailed]
  rfl

/-- A failing run hands back the claim that its submission leads, while it is validating. -/
theorem finishValidation_restores {row : SubmissionValidation} {report : ValidationReport}
    (detected : Option FileType) (hrun : s.db.runs.get run = some row)
    (hunfinished : row.finishedAt = none) (hr : s.db.submissions.get row.submissionId = some r)
    (hfailed : report.verdict = .validationFailed) (hc : s.db.claims.get r.claimId = some c)
    (hlatest : c.latestSubmissionId = some row.submissionId) (hstatus : c.status = .validating) :
    (s.apply (.finishValidation run report detected)).db.claims.get r.claimId =
      some c.restored := by
  rw [apply_finishValidation_failed detected hrun hunfinished hr hfailed]
  have hget : (s.db.putSubmission row.submissionId (r.finish report detected)).claims.get r.claimId =
      some c := hc
  unfold restoreActionableClaim
  rw [hget]
  dsimp only
  rw [if_neg (by simp [hlatest]), if_neg (by simp [hstatus])]
  exact Table.get_put_self _ _ _

theorem finishValidation_fails {row : SubmissionValidation} {report : ValidationReport}
    (detected : Option FileType) (hrun : s.db.runs.get run = some row)
    (hunfinished : row.finishedAt = none) (hr : s.db.submissions.get row.submissionId = some r)
    (hfailed : report.verdict = .validationFailed) :
    (s.apply (.finishValidation run report detected)).db.submissions.get row.submissionId =
      some (r.finish report detected) := by
  rw [apply_finishValidation_failed detected hrun hunfinished hr hfailed]
  have hkept : ∀ db : Db, (restoreActionableClaim db row.submissionId r.claimId).submissions =
      db.submissions := by
    intro db
    unfold restoreActionableClaim
    split
    next => rfl
    next =>
      split
      next => rfl
      next => split <;> rfl
  change (restoreActionableClaim _ _ _).submissions.get row.submissionId = _
  rw [hkept]
  exact Table.get_put_self _ _ _

end Commits

section Necessity

variable {s : State}

/-- Every claim waits as it should after a start only if the start met its condition. -/
theorem keepsUnwedged_of_start {id : SubmissionId} {run : RunId}
    (h : Unwedged (s.apply (.startValidation id run))) :
    KeepsUnwedged s (.startValidation id run) := by
  intro r c hr hc hopen hfresh hactionable hguard
  have hdb := apply_startValidation_moving hr hopen hfresh hc hactionable hguard
  have happlied : (s.apply (.startValidation id run)).applied = s.applied := by
    rcases apply_applied s (.startValidation id run) with hsame | ⟨_, _, hop, _⟩
    · exact hsame
    · cases hop
  have hc' : (s.apply (.startValidation id run)).db.claims.get r.claimId =
      some (c.withStatus .validating) := by
    rw [hdb]
    exact Table.get_put_self _ _ _
  obtain ⟨l, last, hl, hlast, hawaited⟩ := h.validating r.claimId _ hc' rfl
  by_cases hid : l = id
  · exact ⟨l, r, hl, hid ▸ hr, Or.inl hid⟩
  · rw [hdb] at hlast
    have hold : s.db.submissions.get l = some last :=
      (Table.get_put_of_ne _ _ hid).symm.trans hlast
    refine ⟨l, last, hl, hold, Or.inr ?_⟩
    unfold State.Awaited at hawaited ⊢
    rwa [happlied] at hawaited

theorem keepsUnwedged_of_finish {run : RunId} {report : ValidationReport}
    {detected : Option FileType} (h : Unwedged (s.apply (.finishValidation run report detected))) :
    KeepsUnwedged s (.finishValidation run report detected) := by
  intro hfailed row r c hrun hunfinished hr hc hlatest hreview
  have hc' : (s.apply (.finishValidation run report detected)).db.claims.get r.claimId =
      some c := by
    rcases finishValidation_claim hc with hsame | ⟨_, hvalidating, _⟩
    · exact hsame
    · rw [hreview] at hvalidating
      cases hvalidating
  obtain ⟨l, last, hl, hlast, hvalidated⟩ := h.underReview r.claimId c hc' hreview
  rw [hlatest] at hl
  cases hl
  rw [finishValidation_fails detected hrun hunfinished hr hfailed] at hlast
  cases hlast
  change report.verdict = _ at hvalidated
  rw [hfailed] at hvalidated
  cases hvalidated

theorem keepsUnwedged_of_lock {id : SubmissionId} (hpointed : Pointed s)
    (h : Unwedged (s.apply (.onValidationPassed id))) :
    KeepsUnwedged s (.onValidationPassed id) := by
  intro r c hr hc hvalidated hentry hlock hguard
  have hactive := ClaimStatus.active_of_reviewEntry hentry
  obtain ⟨c', hc', hreview, hlatest⟩ :=
    enters_review hpointed hr hc hvalidated hactive hguard hlock
  obtain ⟨l, last', hl, hlast', hpassed⟩ := h.underReview r.claimId c' hc' hreview
  rw [hlatest] at hl
  obtain ⟨last, hlast, _⟩ := hpointed.latest r.claimId c l hc hl
  obtain ⟨_, hget, hmove⟩ := (apply_effect s (.onValidationPassed id)).submission_move hlast
  rw [hlast'] at hget
  cases hget
  refine ⟨l, last, hl, hlast, ?_⟩
  cases hmove with
  | same => exact hpassed
  | reviewed _ _ _ _ _ _ _ hbefore => exact hbefore

end Necessity

section Sufficiency

variable {s : State} {op : Op} {k : ClaimId} {c : AssignmentClaim} {l : SubmissionId}
  {r : Submission}

/-- An awaited submission of a claim that stays validating is still awaited: a failing run
would have handed the claim back, and a lock step would have taken it into review. -/
theorem awaited_step (hpointed : Pointed s) (happlied : AppliedSound s)
    (hc : s.db.claims.get k = some c) (hc' : (s.apply op).db.claims.get k = some c)
    (hstatus : c.status = .validating) (hl : c.latestSubmissionId = some l)
    (hr : s.db.submissions.get l = some r) (hawaited : s.Awaited l r) :
    ∃ r', (s.apply op).db.submissions.get l = some r' ∧ (s.apply op).Awaited l r' := by
  obtain ⟨_, hget, hk⟩ := hpointed.latest k c l hc hl
  rw [hr] at hget
  cases hget
  obtain ⟨r', hr', hmove⟩ := (apply_effect s op).submission_move hr
  refine ⟨r', hr', ?_⟩
  have hunapplied : l ∉ s.applied := by
    intro hmem
    obtain ⟨_, hget, hterminal, _⟩ := happlied l hmem
    rw [hr] at hget
    cases hget
    rcases hawaited with hopen | ⟨_, hnot⟩
    · rw [hterminal] at hopen
      cases hopen
    · exact hnot hmem
  have hunapplied' : l ∉ (s.apply op).applied := by
    rcases apply_applied s op with hsame | ⟨id, row, _, hinsert, hrow, _, hreview⟩
    · rw [hsame]
      exact hunapplied
    · rw [hinsert]
      intro hmem
      rcases Finset.mem_insert.mp hmem with rfl | hold
      · rw [hr] at hrow
        cases hrow
        have hreviewed := hreview c (hk ▸ hc') (by rw [hstatus]; rfl)
        rw [hstatus] at hreviewed
        cases hreviewed
      · exact hunapplied hold
  have hkept : r'.validationStatus = r.validationStatus → (s.apply op).Awaited l r' := by
    intro hsame
    unfold State.Awaited
    rw [hsame]
    exact hawaited.imp_right fun h => ⟨h.1, hunapplied'⟩
  cases hmove with
  | same | cleaned | reviewed => exact hkept rfl
  | started => exact Or.inl rfl
  | finished run report detected row _ hrun hunfinished =>
    by_cases hfailed : report.verdict = .validationFailed
    · have hrestored := finishValidation_restores detected hrun hunfinished hr hfailed (hk ▸ hc)
        hl hstatus
      rw [hk, hc'] at hrestored
      have hmoved : c.status = c.restored.status := congrArg AssignmentClaim.status
        (Option.some.inj hrestored)
      rw [hstatus] at hmoved
      unfold AssignmentClaim.restored at hmoved
      split at hmoved <;> cases hmoved
    · have hpassed : report.verdict = .validated := by
        have hterminal := verdict_terminal report
        cases hverdict : report.verdict <;> simp_all [ValidationStatus.terminal]
      exact Or.inr ⟨hpassed, hunapplied'⟩

/-- The submission under review stays validated under the condition on failing runs. -/
theorem reviewed_step (hpointed : Pointed s) (hkeeps : KeepsUnwedged s op)
    (hc : s.db.claims.get k = some c) (hstatus : c.status = .underReview)
    (hl : c.latestSubmissionId = some l) (hr : s.db.submissions.get l = some r)
    (hvalidated : r.validationStatus = .validated) :
    ∃ r', (s.apply op).db.submissions.get l = some r' ∧ r'.validationStatus = .validated := by
  obtain ⟨_, hget, hk⟩ := hpointed.latest k c l hc hl
  rw [hr] at hget
  cases hget
  obtain ⟨r', hr', hmove⟩ := (apply_effect s op).submission_move hr
  refine ⟨r', hr', ?_⟩
  cases hmove with
  | same | cleaned | reviewed => exact hvalidated
  | started _ _ _ hopen =>
    rw [hvalidated] at hopen
    cases hopen
  | finished run report detected row _ hrun hunfinished =>
    change report.verdict = _
    have hterminal := verdict_terminal report
    have hpassed : report.verdict ≠ .validationFailed := fun hfailed =>
      hkeeps hfailed row r c hrun hunfinished hr (hk ▸ hc) hl hstatus
    cases hverdict : report.verdict <;> simp_all [ValidationStatus.terminal]

/-- The claim that a start moves waits for its latest submission under the condition. -/
theorem started_awaited {id : SubmissionId} {run : RunId} {row : Submission}
    (hkeeps : KeepsUnwedged s (.startValidation id run))
    (hrow : s.db.submissions.get id = some row) (hopen : row.validationStatus.terminal = false)
    (hfresh : s.db.runs.get run = none) (hc : s.db.claims.get row.claimId = some c)
    (hactionable : c.status.actionable = true)
    (hguard : s.db.unfinishedCleanups row.claimId = ∅) :
    (s.apply (.startValidation id run)).db.LatestIs (c.withStatus .validating)
      (s.apply (.startValidation id run)).Awaited := by
  have hdb := apply_startValidation_moving hrow hopen hfresh hc hactionable hguard
  have happlied : (s.apply (.startValidation id run)).applied = s.applied := by
    rcases apply_applied s (.startValidation id run) with hsame | ⟨_, _, hop, _⟩
    · exact hsame
    · cases hop
  obtain ⟨l, last, hl, hlast, hawaited⟩ := hkeeps row c hrow hc hopen hfresh hactionable hguard
  have hnew : (s.apply (.startValidation id run)).db.submissions.get id =
      some (row.withStatus .validating) := by
    rw [hdb]
    exact Table.get_put_self _ _ _
  by_cases hid : l = id
  · exact ⟨l, row.withStatus .validating, hl, hid ▸ hnew, Or.inl rfl⟩
  · refine ⟨l, last, hl, ?_, ?_⟩
    · rw [hdb]
      exact (Table.get_put_of_ne _ _ hid).trans hlast
    · unfold State.Awaited
      rw [happlied]
      exact hawaited.resolve_left hid

/-- The claim that a lock step takes into review has a validated latest submission under the
condition. -/
theorem locked_validated {id : SubmissionId} {row : Submission} {locked : AssignmentClaim}
    {rows : List RewardLockHistory} (hpointed : Pointed s) (hunwedged : Unwedged s)
    (hkeeps : KeepsUnwedged s (.onValidationPassed id))
    (hrow : s.db.submissions.get id = some row) (hvalidated : row.validationStatus = .validated)
    (hc : s.db.claims.get row.claimId = some c) (hactive : c.status.active = true)
    (hlocked : establishLock row.claimId c id row = .ok (locked, rows))
    (hguard : ¬ s.db.EntryRefused row.claimId locked) :
    (s.apply (.onValidationPassed id)).db.LatestIs (bumpLatest s.db locked.entered id row)
      fun _ r => r.validationStatus = .validated := by
  have hframe : locked.status = c.status ∧ locked.latestSubmissionId = c.latestSubmissionId := by
    rcases establishLock_cases hlocked with ⟨_, rfl⟩ | ⟨_, _, rfl⟩ <;> exact ⟨rfl, rfl⟩
  have hbefore : s.db.LatestIs c fun _ r => r.validationStatus = .validated := by
    by_cases hreview : c.status = .underReview
    · exact hunwedged.underReview row.claimId c hc hreview
    · have hentry : c.status.reviewEntry = true := by
        cases hstatus : c.status <;> simp_all [ClaimStatus.active, ClaimStatus.reviewEntry]
      have hclean : s.db.unfinishedCleanups row.claimId = ∅ := by
        by_contra hunfinished
        exact hguard ⟨hframe.1 ▸ hentry, hunfinished⟩
      exact hkeeps row c hrow hc hvalidated hentry
        (establishLock_isOk_iff.mp ⟨locked, rows, hlocked⟩) hclean
  have hlatest : locked.entered.latestSubmissionId = c.latestSubmissionId := by
    rw [entered_latestSubmissionId, hframe.2]
  obtain ⟨l, last, hl, hlast, hpassed⟩ := hbefore
  obtain ⟨last', hlast', hmove⟩ :=
    (apply_effect s (.onValidationPassed id)).submission_move hlast
  rw [hpointed.bumpLatest_eq hrow hc hlatest]
  refine ⟨l, last', hlatest.trans hl, hlast', ?_⟩
  cases hmove with
  | same | reviewed => exact hpassed

theorem unwedged_step (hpointed : Pointed s) (happlied : AppliedSound s) (hunwedged : Unwedged s)
    (hkeeps : KeepsUnwedged s op) : Unwedged (s.apply op) := by
  constructor
  · intro k c' hc' hstatus
    rcases claim_step hc' with hmade | ⟨c, hc, hmove⟩
    · cases hmade
      cases hstatus
    · cases hmove with
      | same =>
        obtain ⟨l, r, hl, hr, hawaited⟩ := hunwedged.validating k c' hc hstatus
        obtain ⟨r', hr', hawaited'⟩ :=
          awaited_step hpointed happlied hc hc' hstatus hl hr hawaited
        exact ⟨l, r', hl, hr', hawaited'⟩
      | ended _ _ _ status _ _ _ hended =>
        change status = _ at hstatus
        rw [hstatus] at hended
        cases hended
      | finalized _ _ _ _ _ _ _ hactionable =>
        change c.status = _ at hstatus
        rw [hstatus] at hactionable
        cases hactionable
      | validating id run row _ hrow hopen hfresh hactionable hguard =>
        exact started_awaited hkeeps hrow hopen hfresh hc hactionable hguard
      | restored _ _ _ _ _ _ status _ _ _ _ hrestored =>
        change status = _ at hstatus
        rw [hrestored] at hstatus
        split at hstatus <;> cases hstatus
      | locked id row _ locked rows _ _ hactive hlocked =>
        rw [locked_status hactive hlocked] at hstatus
        cases hstatus
      | returned => cases hstatus
      | unlocked => cases hstatus
      | approved => cases hstatus
  · intro k c' hc' hstatus
    rcases claim_step hc' with hmade | ⟨c, hc, hmove⟩
    · cases hmade
      cases hstatus
    · cases hmove with
      | same =>
        obtain ⟨l, r, hl, hr, hvalidated⟩ := hunwedged.underReview k c' hc hstatus
        obtain ⟨r', hr', hvalidated'⟩ :=
          reviewed_step hpointed hkeeps hc hstatus hl hr hvalidated
        exact ⟨l, r', hl, hr', hvalidated'⟩
      | ended _ _ _ status _ _ _ hended =>
        change status = _ at hstatus
        rw [hstatus] at hended
        cases hended
      | finalized _ _ _ _ _ _ _ hactionable =>
        change c.status = _ at hstatus
        rw [hstatus] at hactionable
        cases hactionable
      | restored _ _ _ _ _ _ status _ _ _ _ hrestored =>
        change status = _ at hstatus
        rw [hrestored] at hstatus
        split at hstatus <;> cases hstatus
      | locked id row _ locked rows hrow hvalidated hactive hlocked hguard =>
        exact locked_validated hpointed hunwedged hkeeps hrow hvalidated hc hactive hlocked hguard
      | validating => cases hstatus
      | returned => cases hstatus
      | unlocked => cases hstatus
      | approved => cases hstatus

/-- Out of a state where every claim waits as it should, a step keeps it so exactly under its
condition. -/
theorem unwedged_step_iff (hs : lifecycle.Reach s) (hunwedged : Unwedged s) :
    Unwedged (s.apply op) ↔ KeepsUnwedged s op := by
  have hpointed := pointed_inductive.reach hs
  constructor
  · intro h
    cases op with
    | startValidation id run => exact keepsUnwedged_of_start h
    | finishValidation run report detected => exact keepsUnwedged_of_finish h
    | onValidationPassed id => exact keepsUnwedged_of_lock hpointed h
    | _ => trivial
  · exact unwedged_step hpointed (appliedSound_reach hs) hunwedged

end Sufficiency

section Moving

variable {s : State} {k : ClaimId} {c : AssignmentClaim}

def Returnable (s : State) (k : ClaimId) : Prop :=
  ∃ ops c', (s.run ops).db.claims.get k = some c' ∧ c'.status.actionable = true

/-- A validation run that fails hands a validating claim back. -/
theorem returnable_of_open {l : SubmissionId} {r : Submission} (hpointed : Pointed s)
    (hc : s.db.claims.get k = some c) (hstatus : c.status = .validating)
    (hl : c.latestSubmissionId = some l) (hr : s.db.submissions.get l = some r)
    (hopen : r.validationStatus.terminal = false) : Returnable s k := by
  obtain ⟨_, hget, hk⟩ := hpointed.latest k c l hc hl
  rw [hr] at hget
  cases hget
  obtain ⟨run, hrun⟩ := Infinite.exists_notMem_finset s.db.runs.keys
  have hfresh : s.db.runs.get run = none := Finmap.lookup_eq_none.mpr
    fun h => hrun (Finmap.mem_keys.mpr h)
  have hquiet : c.status.actionable = false := by
    rw [hstatus]
    rfl
  have hguard : ¬ s.db.CleanupRefuses r.claimId := by
    rintro ⟨_, hget, hactionable, _⟩
    rw [hk, hc] at hget
    cases hget
    rw [hquiet] at hactionable
    cases hactionable
  have hdb : (s.apply (.startValidation l run)).db =
      (s.db.putSubmission l (r.withStatus .validating)).putRun run (newRun l s.now) := by
    rw [apply_startValidation hr hopen hfresh hguard]
    unfold Db.enterValidating
    rw [hk, hc]
    dsimp only
    rw [if_neg (by simp [hquiet])]
  let t := s.apply (.startValidation l run)
  have hrow : t.db.runs.get run = some (newRun l s.now) := by
    rw [hdb]
    exact Table.get_put_self _ _ _
  have hsub : t.db.submissions.get l = some (r.withStatus .validating) := by
    rw [hdb]
    exact Table.get_put_self _ _ _
  have hclaim : t.db.claims.get r.claimId = some c := by
    rw [hdb, hk]
    exact hc
  have hfailed : failing.verdict = .validationFailed := rfl
  have hrestored := finishValidation_restores none hrow rfl hsub hfailed hclaim hl hstatus
  refine ⟨[.startValidation l run, .finishValidation run failing none], c.restored, ?_, ?_⟩
  · rw [← hk]
    exact hrestored
  · unfold AssignmentClaim.restored
    split <;> rfl

/-- A reviewer can return a claim whose latest submission is validated. -/
theorem returnable_of_validated {l : SubmissionId} {r : Submission} (hs : lifecycle.Reach s)
    (hc : s.db.claims.get k = some c) (hactive : c.status.active = true)
    (hl : c.latestSubmissionId = some l) (hr : s.db.submissions.get l = some r)
    (hvalidated : r.validationStatus = .validated) : Returnable s k := by
  obtain ⟨_, hget, hk⟩ := (pointed_inductive.reach hs).latest k c l hc hl
  rw [hr] at hget
  cases hget
  have hpermitted : reviewer s.db c.taskId ⟨0, .admin⟩ = true := by
    obtain ⟨task, htask⟩ := Option.ne_none_iff_exists'.mp (hasTask_inductive.reach hs k c hc)
    unfold reviewer
    rw [htask]
    simp [isAdmin]
  have hreviewable : Reviewable s.db ⟨0, .admin⟩ l r c :=
    ⟨hr, hk ▸ hc, hactive, hvalidated, hl, hpermitted⟩
  refine ⟨[.requireRevision ⟨0, .admin⟩ l none], c.returned s.now, ?_, rfl⟩
  change (s.commit (requireRevision s.db s.now ⟨0, .admin⟩ l none)).db.claims.get k = _
  rw [requireRevision_ok.mpr ⟨r, c, hreviewable, rfl, rfl⟩, ← hk]
  exact Table.get_put_self _ _ _

/-- Where every claim waits as it should, none is stuck in a status that does not expire. -/
theorem returnable_of_unwedged (hs : lifecycle.Reach s) (hunwedged : Unwedged s)
    (hc : s.db.claims.get k = some c)
    (hstatus : c.status = .validating ∨ c.status = .underReview) : Returnable s k := by
  rcases hstatus with hvalidating | hreview
  · obtain ⟨l, r, hl, hr, hopen | ⟨hvalidated, _⟩⟩ := hunwedged.validating k c hc hvalidating
    · exact returnable_of_open (pointed_inductive.reach hs) hc hvalidating hl hr hopen
    · exact returnable_of_validated hs hc (by rw [hvalidating]; rfl) hl hr hvalidated
  · obtain ⟨l, r, hl, hr, hvalidated⟩ := hunwedged.underReview k c hc hreview
    exact returnable_of_validated hs hc (by rw [hreview]; rfl) hl hr hvalidated

/-- A run keeps every claim waiting as it should exactly when each of its steps meets its
condition, and then no claim is left in VALIDATING or UNDER_REVIEW for ever. -/
theorem no_wedged_claim {s₀ : State} {l : List (State × Op × State)} (hinit : Initial s₀)
    (hrun : lifecycle.Run s₀ l s) :
    ((∀ e ∈ l, Unwedged e.2.2) ↔ ∀ e ∈ l, KeepsUnwedged e.1 e.2.1) ∧
      ((∀ e ∈ l, KeepsUnwedged e.1 e.2.1) → ∀ k c, s.db.claims.get k = some c →
        c.status = .validating ∨ c.status = .underReview → Returnable s k) := by
  have hs₀ : lifecycle.Reach s₀ := .init hinit
  have hfirst : Unwedged s₀ := by
    constructor
    · intro k c hc
      rw [hinit.claims, Table.get_empty] at hc
      cases hc
    · intro k c hc
      rw [hinit.claims, Table.get_empty] at hc
      cases hc
  have hiff : (∀ e ∈ l, Unwedged e.2.2) ↔ ∀ e ∈ l, KeepsUnwedged e.1 e.2.1 := by
    refine Run.keeps_iff ?_ hs₀ hfirst hrun
    rintro t op _ ht hunwedged rfl
    exact unwedged_step_iff ht hunwedged
  refine ⟨hiff, fun hkeeps k c hc hstatus => ?_⟩
  exact returnable_of_unwedged (hrun.reach hs₀) (hrun.last hfirst (hiff.mpr hkeeps)) hc hstatus

end Moving

theorem no_wedged_claim_lockedOnce :
    let s := (opening 50 (by decide)).run lockedOnce
    let l := (opening 50 (by decide)).trace lockedOnce
    (s.db.claims.get 1).map AssignmentClaim.status = some .underReview ∧
      ((∀ e ∈ l, Unwedged e.2.2) ↔ ∀ e ∈ l, KeepsUnwedged e.1 e.2.1) :=
  ⟨by decide +kernel, (no_wedged_claim (opening_initial 50 (by decide)) (run_trace _ lockedOnce)).1⟩

/-- Two uploads of one claim; the newer one fails first, then the older one. -/
def olderFailsLast : List Op :=
  .claim 7 1 1 (some 1) :: submits 1 [1, 2] ++ [.startValidation 2 2,
    .finishValidation 2 failing none, .startValidation 1 1, .finishValidation 1 failing none]

/-- The claim stays in VALIDATING although its latest submission has failed. -/
theorem older_failure_wedges : ¬ ∀ s, lifecycle.Reach s → Unwedged s := by
  intro h
  have hunwedged := h _ (reach_opening 50 (by decide) olderFailsLast)
  have hclaim : (((opening 50 (by decide)).run olderFailsLast).db.claims.get 1).map
      (fun c => (c.status, c.latestSubmissionId)) = some (.validating, some 2) := by
    decide +kernel
  have hlatest : (((opening 50 (by decide)).run olderFailsLast).db.submissions.get 2).map
      Submission.validationStatus = some .validationFailed := by decide +kernel
  obtain ⟨c, hc, hpair⟩ := Option.map_eq_some_iff.mp hclaim
  simp only [Prod.mk.injEq] at hpair
  obtain ⟨l, r, hl, hr, hawaited⟩ := hunwedged.validating 1 c hc hpair.1
  rw [hpair.2] at hl
  cases hl
  rw [hr, Option.map_some, Option.some.injEq] at hlatest
  rcases hawaited with hopen | ⟨hvalidated, _⟩
  · rw [hlatest] at hopen
    cases hopen
  · rw [hlatest] at hvalidated
    cases hvalidated

end CampusQuest.Lifecycle
