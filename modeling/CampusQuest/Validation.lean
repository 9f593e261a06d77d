import CampusQuest.Uploads

/-!
The validation of a submission: one transaction starts a run and one finishes it, and the
sandbox runs between them with no lock held. Any number of runs of one submission may be
between their transactions at once; the last one to finish writes the status.
-/

namespace CampusQuest.Lifecycle

open Tables Guards

/-- An unfinished deletion claim on any submission of the claim refuses the transition. -/
def ensureNoActiveCleanupClaim (db : Db) (claimId : ClaimId) : Answer Unit :=
  ensure (db.unfinishedCleanups claimId = ∅)
    (.cleanupClaimConflict claimId (db.unfinishedCleanups claimId))

def AssignmentClaim.withStatus (claim : AssignmentClaim) (status : ClaimStatus) :
    AssignmentClaim :=
  { claim with status := status }

def Submission.withStatus (s : Submission) (status : ValidationStatus) : Submission :=
  { s with validationStatus := status }

def runStartedParserVersion : Text := ['p', 'e', 'n', 'd', 'i', 'n', 'g']

def newRun (id : SubmissionId) (startedAt : Instant) : SubmissionValidation where
  submissionId := id
  parserVersion := runStartedParserVersion
  status := .validating
  report := none
  startedAt := startedAt
  finishedAt := none
  run_status := by decide

namespace Db

def putRun (db : Db) (id : RunId) (run : SubmissionValidation) : Db :=
  { db with runs := db.runs.put id run }

end Db

inductive ValidationStart
  | replay (report : ValidationReport) (status : ValidationStatus) (detected : Option FileType)
  | started (run : RunId)

/-- Only a claim that awaits the student moves to VALIDATING, and only past the cleanup
guard. -/
def claimValidating (db : Db) (claimId : ClaimId) : Answer Db :=
  match db.claims.get claimId with
  | none => return db
  | some claim =>
    if claim.status.actionable = true then do
      ensureNoActiveCleanupClaim db claimId
      return db.putClaim claimId (claim.withStatus .validating)
    else return db

/-- The first transaction of `validate_submission`. A terminal submission is replayed. -/
def startValidation (db : Db) (now : Instant) (id : SubmissionId) (run : RunId) :
    Answer (ValidationStart × Db) := do
  let submission ← orRefuse (.submissionNotFound id) (db.submissions.get id)
  if submission.validationStatus.terminal = true then do
    let report ← orRefuse (.missingReport id) submission.validationReport
    return (.replay report submission.validationStatus submission.detectedType, db)
  else do
    let db₁ ← claimValidating db submission.claimId
    ensure (db.runs.get run = none) .integrityError
    return (.started run,
      (db₁.putSubmission id (submission.withStatus .validating)).putRun run (newRun id now))

def ValidationReport.verdict (r : ValidationReport) : ValidationStatus :=
  if r.passed = true then .validated else .validationFailed

theorem verdict_terminal (r : ValidationReport) : r.verdict.terminal = true := by
  unfold ValidationReport.verdict
  split <;> rfl

theorem verdict_ne_uploaded (r : ValidationReport) : r.verdict ≠ .uploaded := by
  unfold ValidationReport.verdict
  split <;> simp

/-- `_restore_actionable_claim`: only the claim this submission still leads, and only while
it is still VALIDATING. -/
def restoreActionableClaim (db : Db) (id : SubmissionId) (claimId : ClaimId) : Db :=
  match db.claims.get claimId with
  | none => db
  | some claim =>
    if claim.latestSubmissionId ≠ some id then db
    else if claim.status ≠ .validating then db
    else db.putClaim claimId (claim.withStatus
      (if claim.revisionDeadlineAt.isSome then .revisionRequired else .claimed))

theorem restoreActionableClaim_none {db : Db} {id : SubmissionId} {claimId : ClaimId}
    (h : db.claims.get claimId = none) : restoreActionableClaim db id claimId = db := by
  unfold restoreActionableClaim
  rw [h]

theorem restoreActionableClaim_some {db : Db} {id : SubmissionId} {claimId : ClaimId}
    (claim : AssignmentClaim) (h : db.claims.get claimId = some claim) :
    restoreActionableClaim db id claimId =
      if claim.latestSubmissionId ≠ some id then db
      else if claim.status ≠ .validating then db
      else db.putClaim claimId (claim.withStatus
        (if claim.revisionDeadlineAt.isSome then .revisionRequired else .claimed)) := by
  unfold restoreActionableClaim
  rw [h]

def Submission.finish (s : Submission) (report : ValidationReport) (detected : Option FileType) :
    Submission :=
  { s with
    validationStatus := report.verdict
    validationReport := some report
    detectedType := detected.or s.detectedType }

def SubmissionValidation.finish (run : SubmissionValidation) (report : ValidationReport)
    (finishedAt : Instant) : SubmissionValidation :=
  { run with
    parserVersion := report.parserVersion
    status := report.verdict
    report := some report
    finishedAt := some finishedAt
    run_status := verdict_ne_uploaded report }

/-- The final transaction of a run. It locks the submission again but looks at no status:
the last writer wins. -/
def finishValidation (db : Db) (now : Instant) (run : RunId) (report : ValidationReport)
    (detected : Option FileType) : Answer (ValidationStatus × Db) := do
  let row ← orRefuse .assertionFailed (db.runs.get run)
  let submission ← orRefuse (.submissionNotFound row.submissionId)
    (db.submissions.get row.submissionId)
  let db₁ := db.putSubmission row.submissionId (submission.finish report detected)
  let db₂ :=
    if report.verdict = .validationFailed then
      restoreActionableClaim db₁ row.submissionId submission.claimId
    else db₁
  return (report.verdict, db₂.putRun run (row.finish report now))

section Outcomes

variable {db db' : Db} {now : Instant}

/-- What `claimValidating` leaves, when the cleanup guard lets it pass. -/
def Db.enterValidating (db : Db) (claimId : ClaimId) : Db :=
  match db.claims.get claimId with
  | none => db
  | some claim =>
    if claim.status.actionable = true then db.putClaim claimId (claim.withStatus .validating)
    else db

def Db.CleanupRefuses (db : Db) (claimId : ClaimId) : Prop :=
  ∃ claim, db.claims.get claimId = some claim ∧ claim.status.actionable = true ∧
    db.unfinishedCleanups claimId ≠ ∅

theorem claimValidating_ok {claimId : ClaimId} :
    claimValidating db claimId = .ok db' ↔
      ¬ db.CleanupRefuses claimId ∧ db' = db.enterValidating claimId := by
  unfold claimValidating Db.CleanupRefuses Db.enterValidating
  cases hclaim : db.claims.get claimId with
  | none =>
    constructor
    · intro h
      cases h
      exact ⟨by simp, rfl⟩
    · rintro ⟨_, rfl⟩
      rfl
  | some claim =>
    by_cases hactionable : claim.status.actionable = true
    · simp only [hactionable, if_true]
      unfold ensureNoActiveCleanupClaim
      rw [ensure_bind_ok]
      constructor
      · rintro ⟨hguard, h⟩
        cases h
        exact ⟨by simp [hguard], rfl⟩
      · rintro ⟨hguard, rfl⟩
        exact ⟨by simpa [hactionable] using hguard, rfl⟩
    · simp only [hactionable]
      constructor
      · intro h
        cases h
        exact ⟨by simp [hactionable], rfl⟩
      · rintro ⟨_, rfl⟩
        rfl

/-- A run starts exactly on a submission that is not terminal yet, past the cleanup guard. -/
theorem startValidation_started {id : SubmissionId} {run run' : RunId} :
    startValidation db now id run = .ok (.started run', db') ↔
      run' = run ∧ db.runs.get run = none ∧
      ∃ s, db.submissions.get id = some s ∧ s.validationStatus.terminal = false ∧
        ¬ db.CleanupRefuses s.claimId ∧
        db' = ((db.enterValidating s.claimId).putSubmission id (s.withStatus .validating)).putRun
          run (newRun id now) := by
  unfold startValidation
  rw [orRefuse_bind_ok]
  constructor
  · rintro ⟨s, hs, h⟩
    split at h
    next =>
      obtain ⟨report, _, h⟩ := orRefuse_bind_ok.mp h
      cases h
    next hterminal =>
      obtain ⟨db₁, hdb₁, h⟩ := bind_ok.mp h
      obtain ⟨hguard, rfl⟩ := claimValidating_ok.mp hdb₁
      obtain ⟨hfresh, h⟩ := ensure_bind_ok.mp h
      cases h
      exact ⟨rfl, hfresh, s, hs, by simpa using hterminal, hguard, rfl⟩
  · rintro ⟨rfl, hfresh, s, hs, hterminal, hguard, rfl⟩
    refine ⟨s, hs, ?_⟩
    rw [if_neg (by simp [hterminal])]
    rw [bind_ok]
    refine ⟨_, claimValidating_ok.mpr ⟨hguard, rfl⟩, ?_⟩
    rw [ensure_bind_ok]
    exact ⟨hfresh, rfl⟩

/-- A start that finds the submission terminal writes nothing and starts no run. -/
theorem startValidation_replay {id : SubmissionId} {run : RunId} {report : ValidationReport}
    {status : ValidationStatus} {detected : Option FileType}
    (h : startValidation db now id run = .ok (.replay report status detected, db')) :
    db' = db := by
  unfold startValidation at h
  obtain ⟨s, _, h⟩ := orRefuse_bind_ok.mp h
  split at h
  next =>
    obtain ⟨_, _, h⟩ := orRefuse_bind_ok.mp h
    cases h
    rfl
  next =>
    obtain ⟨_, _, h⟩ := bind_ok.mp h
    obtain ⟨_, h⟩ := ensure_bind_ok.mp h
    cases h

theorem finishValidation_ok {run : RunId} {report : ValidationReport}
    {detected : Option FileType} {status : ValidationStatus} :
    finishValidation db now run report detected = .ok (status, db') ↔
      ∃ row s, db.runs.get run = some row ∧ db.submissions.get row.submissionId = some s ∧
        status = report.verdict ∧
        db' = (if report.verdict = .validationFailed then
            restoreActionableClaim (db.putSubmission row.submissionId (s.finish report detected))
              row.submissionId s.claimId
          else db.putSubmission row.submissionId (s.finish report detected)).putRun run
            (row.finish report now) := by
  unfold finishValidation
  rw [orRefuse_bind_ok]
  constructor
  · rintro ⟨row, hrow, h⟩
    obtain ⟨s, hs, h⟩ := orRefuse_bind_ok.mp h
    cases h
    exact ⟨row, s, hrow, hs, rfl, rfl⟩
  · rintro ⟨row, s, hrow, hs, rfl, rfl⟩
    refine ⟨row, hrow, ?_⟩
    rw [orRefuse_bind_ok]
    exact ⟨s, hs, rfl⟩

end Outcomes

end CampusQuest.Lifecycle
