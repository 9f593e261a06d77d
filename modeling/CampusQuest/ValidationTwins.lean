import CampusQuest.ClaimInvariants

/-!
Twin runs of one validation. A verdict that has been committed stays a verdict, and no run
of its submission starts any more; but the final transaction looks at no status, so a twin
that was in flight still writes its own verdict over it, and a failing one still hands the
claim back while it is validating.
-/

namespace CampusQuest.Lifecycle

open Tables Runs System

namespace Db

def HasVerdict (db : Db) (id : SubmissionId) : Prop :=
  ∃ r, db.submissions.get id = some r ∧ r.validationStatus.terminal = true

def InFlight (db : Db) (id : SubmissionId) (run : RunId) : Prop :=
  ∃ row, db.runs.get run = some row ∧ row.submissionId = id ∧ row.finishedAt = none

end Db

section Steps

variable {s : State} {id : SubmissionId}

theorem hasVerdict_step (op : Op) (h : s.db.HasVerdict id) : (s.apply op).db.HasVerdict id := by
  obtain ⟨r, hr, hterminal⟩ := h
  obtain ⟨r', hr', hmove⟩ := (apply_effect s op).submission_move hr
  exact ⟨r', hr', hmove.terminal hterminal⟩

/-- No run of a submission with a verdict starts. -/
theorem inFlight_step {op : Op} {run : RunId} (hverdict : s.db.HasVerdict id)
    (h : (s.apply op).db.InFlight id run) : s.db.InFlight id run := by
  obtain ⟨r, hr, hterminal⟩ := hverdict
  obtain ⟨row', hrow', hid, hunfinished⟩ := h
  rcases (apply_effect s op).run_cases hrow' with
    ⟨i, r₁, _, hr₁, hopen, rfl⟩ | ⟨row, hrow, rfl | ⟨report, t, _, rfl⟩⟩
  · have hi : i = id := hid
    rw [hi, hr] at hr₁
    cases hr₁
    rw [hterminal] at hopen
    cases hopen
  · exact ⟨row', hrow, hid, hunfinished⟩
  · cases hunfinished

/-- Starting a submission with a verdict replays it. -/
theorem startValidation_of_verdict (run : RunId) (h : s.db.HasVerdict id) :
    s.apply (.startValidation id run) = s := by
  obtain ⟨r, hr, hterminal⟩ := h
  change s.commit (startValidation s.db s.now id run) = s
  cases hanswer : startValidation s.db s.now id run with
  | error e => rfl
  | ok answer =>
    obtain ⟨out, db⟩ := answer
    cases out with
    | replay report status detected =>
      rw [startValidation_replay hanswer]
      rfl
    | started run' =>
      obtain ⟨_, _, r₁, hr₁, hopen, _⟩ := startValidation_started.mp hanswer
      rw [hr] at hr₁
      cases hr₁
      rw [hterminal] at hopen
      cases hopen

/-- The back-edge of a failing final transaction. -/
def AssignmentClaim.restored (c : AssignmentClaim) : AssignmentClaim :=
  c.withStatus (if c.revisionDeadlineAt.isSome then .revisionRequired else .claimed)

/-- A final transaction never writes an assignment. -/
theorem finishValidation_assignments (s : State) (run : RunId) (report : ValidationReport)
    (detected : Option FileType) :
    (s.apply (.finishValidation run report detected)).db.assignments = s.db.assignments := by
  have heffect := apply_effect s (.finishValidation run report detected)
  generalize (s.apply (.finishValidation run report detected)).db = db' at heffect
  cases heffect with
  | core _ hcore => exact hcore.assignments
  | ended _ _ _ _ _ hends => cases hends
  | finished => rfl
  | finishedRestoring => rfl

/-- A final transaction moves a claim only back to the student, and only a claim that is
validating and led by the submission of the run. -/
theorem finishValidation_claim {run : RunId} {report : ValidationReport}
    {detected : Option FileType} {k : ClaimId} {c : AssignmentClaim}
    (hc : s.db.claims.get k = some c) :
    (s.apply (.finishValidation run report detected)).db.claims.get k = some c ∨
      (report.verdict = .validationFailed ∧ c.status = .validating ∧
        (∃ row, s.db.runs.get run = some row ∧ c.latestSubmissionId = some row.submissionId) ∧
        (s.apply (.finishValidation run report detected)).db.claims.get k = some c.restored) := by
  obtain ⟨c', hc', hmove⟩ :=
    (apply_effect s (.finishValidation run report detected)).claim_move hc
  cases hmove with
  | same => exact Or.inl hc'
  | ended _ _ _ _ _ hends => cases hends
  | restored _ _ _ row _ _ status hrun hfailed hlatest hvalidating hstatus =>
    subst hstatus
    exact Or.inr ⟨hfailed, hvalidating, ⟨row, hrun, hlatest⟩, hc'⟩

/-- A final transaction leaves a verdict, or its run was of this submission and it writes
its own. -/
theorem finishValidation_status {run : RunId} {report : ValidationReport}
    {detected : Option FileType} {r : Submission} (hr : s.db.submissions.get id = some r) :
    ∃ r', (s.apply (.finishValidation run report detected)).db.submissions.get id = some r' ∧
      (r'.validationStatus = r.validationStatus ∨
        (s.db.InFlight id run ∧ r'.validationStatus = report.verdict)) := by
  obtain ⟨r', hr', hmove⟩ :=
    (apply_effect s (.finishValidation run report detected)).submission_move hr
  refine ⟨r', hr', ?_⟩
  cases hmove with
  | same | reviewed => exact Or.inl rfl
  | finished _ _ _ row _ hrun hunfinished => exact Or.inr ⟨⟨row, hrun, rfl, hunfinished⟩, rfl⟩

end Steps

/-- What a final transaction may do after the submission had its verdict in the tables `db`. -/
structure LateFinish (db : Db) (id : SubmissionId) (run : RunId) (report : ValidationReport)
    (t t' : State) : Prop where
  assignments : t'.db.assignments = t.db.assignments
  status : ∀ r, t.db.submissions.get id = some r →
    ∃ r', t'.db.submissions.get id = some r' ∧ (r'.validationStatus = r.validationStatus ∨
      (db.InFlight id run ∧ r'.validationStatus = report.verdict))
  claims : ∀ k c, t.db.claims.get k = some c → t'.db.claims.get k = some c ∨
    (report.verdict = .validationFailed ∧ c.status = .validating ∧
      (∃ row, t.db.runs.get run = some row ∧ c.latestSubmissionId = some row.submissionId) ∧
      t'.db.claims.get k = some c.restored)

section History

variable {s s' : State} {l : List (State × Op × State)} {id : SubmissionId}

theorem verdict_of_run (hs : lifecycle.Reach s) (hrun : lifecycle.Run s l s')
    (hverdict : s.db.HasVerdict id) :
    s'.db.HasVerdict id ∧ ∀ run, s'.db.InFlight id run → s.db.InFlight id run := by
  refine Run.keeps (P := fun t => t.db.HasVerdict id ∧
    ∀ run, t.db.InFlight id run → s.db.InFlight id run) ?_ hs hrun ⟨hverdict, fun _ h => h⟩
  rintro t op _ _ ⟨hkept, hold⟩ rfl
  exact ⟨hasVerdict_step op hkept, fun run h => hold run (inFlight_step hkept h)⟩

end History

/-- Two runs of submission 1 pass their first transaction, and the first one succeeds. -/
def twins : List Op :=
  .claim 7 1 1 (some 1) :: submits 1 [1] ++ [.startValidation 1 1, .startValidation 1 2,
    .finishValidation 1 passing none]

theorem hasVerdict_twins : ((opening 50 (by decide)).run twins).db.HasVerdict 1 := by
  have hstatus : ((((opening 50 (by decide)).run twins).db.submissions.get 1).map
      fun r => r.validationStatus.terminal) = some true := by decide +kernel
  obtain ⟨r, hr, hterminal⟩ := Option.map_eq_some_iff.mp hstatus
  exact ⟨r, hr, hterminal⟩

end CampusQuest.Lifecycle
