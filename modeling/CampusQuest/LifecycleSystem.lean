import CampusQuest.Review
import CampusQuest.Runs

/-!
The claim lifecycle as one system. Every transaction of a service is a step, so the two
transactions of a validation run are two steps with anything in between; a run whose worker
died is one that is never finished. Accounts, tasks, imports, the file cleanup and the
points services move on their own. `applied` remembers the submissions whose lock step has
answered; no service reads it.
-/

namespace CampusQuest.Lifecycle

open Tables Runs

structure State where
  db : Db
  now : Instant
  applied : Finset SubmissionId

inductive Op
  | tick (now : Instant)
  | account (user : UserId) (row : Account)
  | task (id : TaskId) (row : Task)
  | collaborate (id : TaskId) (teacher : UserId) (permissions : List CollaboratorPermission)
  | importAssignment (id : AssignmentId) (task : TaskId)
  | cleanup (id : SubmissionId) (hold : Bool) (lease : CleanupLease)
  | cleanupIntent (id : IntentId) (lease : CleanupLease)
  | points (call : Points.Call)
  | claim (user : UserId) (task : TaskId) (id : ClaimId) (choice : Option AssignmentId)
  | expire (id : ClaimId) (now : Instant)
  | abandon (day : Instant × Instant) (limit : ℕ) (user : UserId) (id : ClaimId)
  | createIntent (user : UserId) (claim : ClaimId) (id : IntentId) (objectKey : Text)
      (declaredType : FileType) (size : ℤ)
  | finalize (user : UserId) (intent : IntentId) (id : SubmissionId) (head : Option ObjectHead)
  | startValidation (id : SubmissionId) (run : RunId)
  | finishValidation (run : RunId) (report : ValidationReport) (detected : Option FileType)
  | onValidationPassed (id : SubmissionId)
  | requireRevision (actor : Actor) (id : SubmissionId) (note : Option Text)
  | invalidate (actor : Actor) (id : SubmissionId) (reason : Option Text)
  | approve (actor : Actor) (id : SubmissionId)

def Op.ends : Op → Bool
  | .expire _ _ | .abandon _ _ _ _ => true
  | _ => false

def Submission.cleaned (row : Submission) (hold : Bool) (lease : CleanupLease) : Submission :=
  { row.withLease lease with legalHold := hold }

namespace State

def commit {α : Type} (s : State) : Answer (α × Db) → State
  | .ok (_, db) => { s with db := db }
  | .error _ => s

def commitLock (s : State) (id : SubmissionId) : Answer (AssignmentClaim × Db) → State
  | .ok (_, db) => { s with db := db, applied := insert id s.applied }
  | .error _ => s

/-- A worker may finish a run that it has started and not finished. -/
def unfinished (s : State) (run : RunId) : Bool :=
  (s.db.runs.get run).any fun row => row.finishedAt.isNone

def importAssignment (s : State) (id : AssignmentId) (task : TaskId) : State :=
  match s.db.assignments.get id with
  | some _ => s
  | none =>
    { s with db := { s.db with assignments := s.db.assignments.put id ⟨task, .available⟩ } }

def cleanup (s : State) (id : SubmissionId) (hold : Bool) (lease : CleanupLease) : State :=
  match s.db.submissions.get id with
  | some row => { s with db := s.db.putSubmission id (row.cleaned hold lease) }
  | none => s

def cleanupIntent (s : State) (id : IntentId) (lease : CleanupLease) : State :=
  match s.db.intents.get id with
  | some intent => { s with db := s.db.putIntent id (intent.withLease lease) }
  | none => s

def callPoints (s : State) (call : Points.Call) : State :=
  match (Points.program call).run s.db.points with
  | .ok (_, points) => { s with db := { s.db with points } }
  | .error _ => s

def apply (s : State) : Op → State
  | .tick now => { s with now := max s.now now }
  | .account user row => { s with db := { s.db with users := s.db.users.put user row } }
  | .task id row => { s with db := { s.db with tasks := s.db.tasks.put id row } }
  | .collaborate id teacher permissions =>
    { s with
      db := { s.db with collaborators := s.db.collaborators.put (id, teacher) permissions } }
  | .importAssignment id task => s.importAssignment id task
  | .cleanup id hold lease => s.cleanup id hold lease
  | .cleanupIntent id lease => s.cleanupIntent id lease
  | .points call => s.callPoints call
  | .claim user task id choice =>
    s.commit (claimRandomAssignment s.db s.now user task id choice)
  | .expire id now => { s with db := (expireClaimIfDue s.db id now).2 }
  | .abandon day limit user id => s.commit (abandonClaim s.db s.now day limit user id)
  | .createIntent user claim id objectKey declaredType size =>
    s.commit (createUploadIntent s.db s.now user claim id objectKey declaredType size)
  | .finalize user intent id head => s.commit (finalizeUpload s.db s.now user intent id head)
  | .startValidation id run => s.commit (startValidation s.db s.now id run)
  | .finishValidation run report detected =>
    if s.unfinished run = true then s.commit (finishValidation s.db s.now run report detected)
    else s
  | .onValidationPassed id => s.commitLock id (onValidationPassed s.db id)
  | .requireRevision actor id note => s.commit (requireRevision s.db s.now actor id note)
  | .invalidate actor id reason => s.commit (invalidateRewardLock s.db s.now actor id reason)
  | .approve actor id => s.commit (approveSubmission s.db s.now actor id)

end State

/-- Before the first claim: any accounts and tasks, any available assignments. -/
structure Initial (s : State) : Prop where
  available : ∀ a row, s.db.assignments.get a = some row → row.availabilityStatus = .available
  claims : s.db.claims = .empty
  submissions : s.db.submissions = .empty
  intents : s.db.intents = .empty
  runs : s.db.runs = .empty
  applied : s.applied = ∅

def lifecycle : System State Op where
  init := Initial
  step s op s' := s' = s.apply op

/-- Tables that agree on everything but accounts, tasks and points; a task that is there may
be edited but stays. -/
structure SameCore (db db' : Db) : Prop where
  tasks : ∀ t, db.tasks.get t ≠ none → db'.tasks.get t ≠ none
  claims : db'.claims = db.claims
  assignments : db'.assignments = db.assignments
  submissions : db'.submissions = db.submissions
  intents : db'.intents = db.intents
  runs : db'.runs = db.runs

theorem SameCore.refl (db : Db) : SameCore db db := ⟨fun _ h => h, rfl, rfl, rfl, rfl, rfl⟩

/-- What an operation does to the tables, with everything that was checked. -/
inductive Effect (s : State) : Op → Db → Prop
  | core (op : Op) {db' : Db} (h : SameCore s.db db') : Effect s op db'
  | imported (id : AssignmentId) (task : TaskId) (hfresh : s.db.assignments.get id = none) :
      Effect s (.importAssignment id task)
        { s.db with assignments := s.db.assignments.put id ⟨task, .available⟩ }
  | cleaned (id : SubmissionId) (hold : Bool) (lease : CleanupLease) (row : Submission)
      (hrow : s.db.submissions.get id = some row) :
      Effect s (.cleanup id hold lease) (s.db.putSubmission id (row.cleaned hold lease))
  | intentCleaned (id : IntentId) (lease : CleanupLease) (intent : UploadIntent)
      (hintent : s.db.intents.get id = some intent) :
      Effect s (.cleanupIntent id lease) (s.db.putIntent id (intent.withLease lease))
  | intentMade (user : UserId) (claim : ClaimId) (id : IntentId) (objectKey : Text)
      (declaredType : FileType) (size : ℤ) (hsize : 0 ≤ size) (hfresh : s.db.intents.get id = none)
      (hkey : ¬ s.db.KeyGranted objectKey) :
      Effect s (.createIntent user claim id objectKey declaredType size) (s.db.putIntent id
        (newIntent claim objectKey declaredType size (s.now + defaultIntentTtl) hsize))
  | intentBurned (user : UserId) (intentId : IntentId) (id : SubmissionId)
      (head : Option ObjectHead) (intent : UploadIntent) (claim : AssignmentClaim)
      (hopen : OpenIntent s.db s.now intentId intent claim) :
      Effect s (.finalize user intentId id head)
        (s.db.putIntent intentId (intent.consume s.now none))
  | claimed (user : UserId) (taskId : TaskId) (id : ClaimId) (choice : Option AssignmentId)
      (a : AssignmentId) (row : Assignment) (task : Task) (deadlines : ClaimDeadlines)
      (htask : s.db.tasks.get taskId = some task) (hassignment : s.db.assignments.get a = some row)
      (havailable : row.availabilityStatus = .available) (hgave : ¬ s.db.GaveBack user a)
      (htaken : ¬ s.db.AssignmentTaken a) (hactive : ¬ s.db.HasActiveClaim user taskId)
      (hfresh : s.db.claims.get id = none) :
      Effect s (.claim user taskId id choice) ((s.db.setAvailability a row .occupied).putClaim id
        (newClaim a taskId task user s.now deadlines))
  | ended (op : Op) (id : ClaimId) (claim : AssignmentClaim) (status : ClaimStatus) (t : Instant)
      (hends : op.ends = true) (hclaim : s.db.claims.get id = some claim)
      (hactionable : claim.status.actionable = true) (hstatus : status.reassignExcluded = true) :
      Effect s op ((s.db.leaveOccupied claim.assignmentId .available).putClaim id
        (claim.terminate status t))
  | finalized (user : UserId) (intentId : IntentId) (id : SubmissionId) (head : Option ObjectHead)
      (intent : UploadIntent) (claim : AssignmentClaim) (size : ℤ) (policy : RetentionPolicy)
      (hsize : 0 ≤ size) (hclaim : s.db.claims.get intent.claimId = some claim)
      (hactionable : claim.status.actionable = true)
      (hopen : submissionWindowOpen claim s.now = true)
      (hfresh : s.db.submissions.get id = none)
      (hintent : OpenIntent s.db s.now intentId intent claim)
      (hkey : ¬ s.db.KeySubmitted intent.objectKey) :
      Effect s (.finalize user intentId id head) (((s.db.putSubmission id (newSubmission intent
        (s.db.maxVersion intent.claimId) size s.now policy hsize)).putIntent intentId
          (intent.consume s.now (some id))).putClaim intent.claimId (claim.withLatest id))
  | started (id : SubmissionId) (run : RunId) (row : Submission)
      (hrow : s.db.submissions.get id = some row) (hopen : row.validationStatus.terminal = false)
      (hfresh : s.db.runs.get run = none)
      (hquiet : ∀ claim, s.db.claims.get row.claimId = some claim →
        claim.status.actionable = false) :
      Effect s (.startValidation id run)
        ((s.db.putSubmission id (row.withStatus .validating)).putRun run (newRun id s.now))
  | startedMoving (id : SubmissionId) (run : RunId) (row : Submission) (claim : AssignmentClaim)
      (hrow : s.db.submissions.get id = some row) (hopen : row.validationStatus.terminal = false)
      (hfresh : s.db.runs.get run = none) (hclaim : s.db.claims.get row.claimId = some claim)
      (hactionable : claim.status.actionable = true)
      (hguard : s.db.unfinishedCleanups row.claimId = ∅) :
      Effect s (.startValidation id run) (((s.db.putClaim row.claimId
        (claim.withStatus .validating)).putSubmission id (row.withStatus .validating)).putRun run
          (newRun id s.now))
  | finished (run : RunId) (report : ValidationReport) (detected : Option FileType)
      (row : SubmissionValidation) (sub : Submission) (hrun : s.db.runs.get run = some row)
      (hunfinished : row.finishedAt = none) (hsub : s.db.submissions.get row.submissionId = some sub)
      (hquiet : report.verdict = .validationFailed → ∀ claim,
        s.db.claims.get sub.claimId = some claim →
          claim.latestSubmissionId = some row.submissionId → claim.status ≠ .validating) :
      Effect s (.finishValidation run report detected) ((s.db.putSubmission row.submissionId
        (sub.finish report detected)).putRun run (row.finish report s.now))
  | finishedRestoring (run : RunId) (report : ValidationReport) (detected : Option FileType)
      (row : SubmissionValidation) (sub : Submission) (claim : AssignmentClaim)
      (status : ClaimStatus) (hrun : s.db.runs.get run = some row)
      (hunfinished : row.finishedAt = none) (hsub : s.db.submissions.get row.submissionId = some sub)
      (hfailed : report.verdict = .validationFailed)
      (hclaim : s.db.claims.get sub.claimId = some claim)
      (hlatest : claim.latestSubmissionId = some row.submissionId)
      (hvalidating : claim.status = .validating)
      (hstatus : status = if claim.revisionDeadlineAt.isSome then .revisionRequired else .claimed) :
      Effect s (.finishValidation run report detected) (((s.db.putSubmission row.submissionId
        (sub.finish report detected)).putClaim sub.claimId (claim.withStatus status)).putRun run
          (row.finish report s.now))
  | locked (id : SubmissionId) (row : Submission) (claim locked : AssignmentClaim)
      (rows : List RewardLockHistory) (hrow : s.db.submissions.get id = some row)
      (hclaim : s.db.claims.get row.claimId = some claim)
      (hvalidated : row.validationStatus = .validated) (hactive : claim.status.active = true)
      (hlocked : establishLock row.claimId claim id row = .ok (locked, rows))
      (hguard : ¬ s.db.EntryRefused row.claimId locked) :
      Effect s (.onValidationPassed id) { s.db.putClaim row.claimId
        (bumpLatest s.db locked.entered id row) with lockHistory := s.db.lockHistory ++ rows }
  | returned (actor : Actor) (id : SubmissionId) (note : Option Text) (row : Submission)
      (claim : AssignmentClaim) (hreviewable : Reviewable s.db actor id row claim) :
      Effect s (.requireRevision actor id note) ((s.db.putSubmission id (row.review
        .revisionRequired actor.userId s.now (noteText note))).putClaim row.claimId
          (claim.returned s.now))
  | invalidated (actor : Actor) (id : SubmissionId) (reason : Option Text) (row : Submission)
      (claim : AssignmentClaim) (rows : List RewardLockHistory)
      (hreviewable : Reviewable s.db actor id row claim)
      (hlock : claim.rewardLockStatus = .provisional) :
      Effect s (.invalidate actor id reason) { (s.db.putSubmission id (row.review
        .revisionRequired actor.userId s.now (some (strippedReason reason)))).putClaim row.claimId
          (claim.unlock.returned s.now) with lockHistory := s.db.lockHistory ++ rows }
  | approved (actor : Actor) (id : SubmissionId) (row : Submission) (claim : AssignmentClaim)
      (rows : List RewardLockHistory) (paid : Points.PointsDb)
      (hreviewable : Reviewable s.db actor id row claim)
      (hlock : claim.rewardLockStatus = .provisional) :
      Effect s (.approve actor id) { ((s.db.leaveOccupied claim.assignmentId
        .completed).putSubmission id (row.review .approved actor.userId s.now none)).putClaim
          row.claimId (claim.complete s.now) with
            lockHistory := s.db.lockHistory ++ rows
            points := paid }

section Inversion

variable {s : State}

/-- A committed answer leaves its tables, a refusal the tables of before. -/
theorem commit_effect {α : Type} {op : Op} {answer : Answer (α × Db)}
    (h : ∀ a db, answer = .ok (a, db) → Effect s op db) : Effect s op (s.commit answer).db := by
  cases hanswer : answer with
  | ok result => exact h result.1 result.2 hanswer
  | error e => exact .core op (SameCore.refl s.db)

theorem startValidation_effect {id : SubmissionId} {run : RunId} {out : ValidationStart}
    {db : Db} (h : startValidation s.db s.now id run = .ok (out, db)) :
    Effect s (.startValidation id run) db := by
  cases out with
  | replay report status detected =>
    rw [startValidation_replay h]
    exact .core _ (SameCore.refl s.db)
  | started run' =>
    obtain ⟨_, hfresh, row, hrow, hopen, hguard, rfl⟩ := startValidation_started.mp h
    unfold Db.enterValidating
    cases hclaim : s.db.claims.get row.claimId with
    | none =>
      refine .started id run row hrow hopen hfresh fun claim hget => ?_
      rw [hclaim] at hget
      cases hget
    | some claim =>
      by_cases hactionable : claim.status.actionable = true
      · simp only [hactionable, if_true]
        have hclean : s.db.unfinishedCleanups row.claimId = ∅ := by
          by_contra hunfinished
          exact hguard ⟨claim, hclaim, hactionable, hunfinished⟩
        exact .startedMoving id run row claim hrow hopen hfresh hclaim hactionable hclean
      · simp only [hactionable]
        refine .started id run row hrow hopen hfresh fun claim' hget => ?_
        rw [hclaim] at hget
        cases hget
        simpa using hactionable

theorem finishValidation_effect {run : RunId} {report : ValidationReport}
    {detected : Option FileType} {status : ValidationStatus} {db : Db}
    (hunfinished : s.unfinished run = true)
    (h : finishValidation s.db s.now run report detected = .ok (status, db)) :
    Effect s (.finishValidation run report detected) db := by
  obtain ⟨row, sub, hrun, hsub, _, rfl⟩ := finishValidation_ok.mp h
  have hopen : row.finishedAt = none := by
    unfold State.unfinished at hunfinished
    rw [hrun] at hunfinished
    simpa using hunfinished
  by_cases hfailed : report.verdict = .validationFailed
  · rw [if_pos hfailed]
    cases hclaim : s.db.claims.get sub.claimId with
    | none =>
      rw [restoreActionableClaim_none]
      swap
      · exact hclaim
      refine .finished run report detected row sub hrun hopen hsub fun _ claim hget => ?_
      rw [hclaim] at hget
      cases hget
    | some claim =>
      rw [restoreActionableClaim_some claim]
      swap
      · exact hclaim
      split
      next hstale =>
        refine .finished run report detected row sub hrun hopen hsub fun _ claim' hget hlatest => ?_
        rw [hclaim] at hget
        cases hget
        exact absurd hlatest hstale
      next hlatest =>
        rw [ne_eq, not_not] at hlatest
        split
        next hstatus =>
          refine .finished run report detected row sub hrun hopen hsub fun _ claim' hget _ => ?_
          rw [hclaim] at hget
          cases hget
          exact hstatus
        next hstatus =>
          rw [ne_eq, not_not] at hstatus
          exact .finishedRestoring run report detected row sub claim _ hrun hopen hsub hfailed
            hclaim hlatest hstatus rfl
  · rw [if_neg hfailed]
    exact .finished run report detected row sub hrun hopen hsub fun h => absurd h hfailed

theorem onValidationPassed_effect {id : SubmissionId} {claim' : AssignmentClaim} {db : Db}
    (h : onValidationPassed s.db id = .ok (claim', db)) :
    Effect s (.onValidationPassed id) db := by
  obtain ⟨row, claim, hrow, hclaim, hvalidated, ⟨_, _, rfl⟩ |
    ⟨locked, rows, hterminal, hlocked, hguard, rfl, rfl⟩⟩ := onValidationPassed_ok.mp h
  · exact .core _ (SameCore.refl s.db)
  · exact .locked id row claim locked rows hrow hclaim hvalidated
      (active_of_not_terminal hterminal) hlocked hguard

/-- Every operation has one of the listed effects. -/
theorem apply_effect (s : State) (op : Op) : Effect s op (s.apply op).db := by
  cases op with
  | tick now => exact .core _ ⟨fun _ h => h, rfl, rfl, rfl, rfl, rfl⟩
  | account user row => exact .core _ ⟨fun _ h => h, rfl, rfl, rfl, rfl, rfl⟩
  | task id row =>
    refine .core _ ⟨fun t h => ?_, rfl, rfl, rfl, rfl, rfl⟩
    change (s.db.tasks.put id row).get t ≠ none
    rw [Table.get_put]
    split <;> simp_all
  | collaborate id teacher permissions => exact .core _ ⟨fun _ h => h, rfl, rfl, rfl, rfl, rfl⟩
  | importAssignment id task =>
    change Effect s _ (s.importAssignment id task).db
    unfold State.importAssignment
    split
    next => exact .core _ (SameCore.refl s.db)
    next hfresh => exact .imported id task hfresh
  | cleanup id hold lease =>
    change Effect s _ (s.cleanup id hold lease).db
    unfold State.cleanup
    split
    next row hrow => exact .cleaned id hold lease row hrow
    next => exact .core _ (SameCore.refl s.db)
  | cleanupIntent id lease =>
    change Effect s _ (s.cleanupIntent id lease).db
    unfold State.cleanupIntent
    split
    next intent hintent => exact .intentCleaned id lease intent hintent
    next => exact .core _ (SameCore.refl s.db)
  | points call =>
    change Effect s _ (s.callPoints call).db
    unfold State.callPoints
    split
    next => exact .core _ ⟨fun _ h => h, rfl, rfl, rfl, rfl, rfl⟩
    next => exact .core _ (SameCore.refl s.db)
  | claim user task id choice =>
    refine commit_effect fun claim db h => ?_
    obtain ⟨a, row, task', deadlines, htask, hrow, havailable, hgave, htaken, hactive, hfresh, rfl,
      rfl⟩ := claimRandomAssignment_ok h
    exact .claimed user task id choice a row task' deadlines htask hrow havailable hgave htaken
      hactive hfresh
  | expire id now =>
    change Effect s _ (expireClaimIfDue s.db id now).2
    rcases expireClaimIfDue_cases s.db id now with hsame | ⟨claim, hclaim, hactionable, hdb⟩
    · rw [hsame]
      exact .core _ (SameCore.refl s.db)
    · rw [hdb]
      exact .ended _ id claim .expired now rfl hclaim hactionable rfl
  | abandon day limit user id =>
    refine commit_effect fun claim' db h => ?_
    rcases abandonClaim_ok h with rfl | ⟨claim, hclaim, _, hactionable, _, rfl⟩
    · exact .core _ (SameCore.refl s.db)
    · exact .ended _ id claim .abandoned s.now rfl hclaim hactionable rfl
  | createIntent user claim id objectKey declaredType size =>
    refine commit_effect fun intent db h => ?_
    obtain ⟨⟨hsize, rfl⟩, hfresh, hkey, rfl⟩ := createUploadIntent_ok h
    exact .intentMade user claim id objectKey declaredType size hsize hfresh hkey
  | finalize user intentId id head =>
    refine commit_effect fun out db h => ?_
    rcases finalizeUpload_ok h with ⟨_, _, _, _, _, _, _, rfl⟩ | ⟨intent, claim, _, hopen, _, rfl⟩ |
      ⟨intent, claim, size, policy, hsize, hopen, hfresh, hkey, _, rfl⟩
    · exact .core _ (SameCore.refl s.db)
    · exact .intentBurned user intentId id head intent claim hopen
    · exact .finalized user intentId id head intent claim size policy hsize hopen.held
        hopen.actionable hopen.window hfresh hopen hkey
  | startValidation id run => exact commit_effect fun _ _ h => startValidation_effect h
  | finishValidation run report detected =>
    change Effect s _ (if s.unfinished run = true then
      s.commit (finishValidation s.db s.now run report detected) else s).db
    split
    next hunfinished => exact commit_effect fun _ _ h => finishValidation_effect hunfinished h
    next => exact .core _ (SameCore.refl s.db)
  | onValidationPassed id =>
    change Effect s _ (s.commitLock id (onValidationPassed s.db id)).db
    unfold State.commitLock
    split
    next h => exact onValidationPassed_effect h
    next => exact .core _ (SameCore.refl s.db)
  | requireRevision actor id note =>
    refine commit_effect fun claim' db h => ?_
    obtain ⟨row, claim, hreviewable, rfl, rfl⟩ := requireRevision_ok.mp h
    exact .returned actor id note row claim hreviewable
  | invalidate actor id reason =>
    refine commit_effect fun claim' db h => ?_
    obtain ⟨row, claim, rows, hreviewable, hlock, rfl, rfl⟩ := invalidateRewardLock_ok h
    exact .invalidated actor id reason row claim rows hreviewable hlock
  | approve actor id =>
    refine commit_effect fun result db h => ?_
    rcases approveSubmission_ok h with rfl | ⟨row, claim, rows, paid, hreviewable, hlock, rfl⟩
    · exact .core _ (SameCore.refl s.db)
    · exact .approved actor id row claim rows paid hreviewable hlock

end Inversion

section Runs

def State.run (s : State) (ops : List Op) : State := ops.foldl State.apply s

def State.trace (s : State) : List Op → List (State × Op × State)
  | [] => []
  | op :: ops => (s, op, s.apply op) :: (s.apply op).trace ops

theorem run_trace (s : State) (ops : List Op) : lifecycle.Run s (s.trace ops) (s.run ops) := by
  induction ops generalizing s with
  | nil => exact .nil s
  | cons op ops ih =>
    have hstep : lifecycle.step s op (s.apply op) := rfl
    exact System.Run.cons hstep (ih (s.apply op))

/-- Operations that each meet a condition stay in the guarded system. -/
theorem guarded_run {G : State → Op → Prop} {s : State} (hs : (lifecycle.guarded G).Reach s)
    (ops : List Op) (h : ∀ e ∈ s.trace ops, G e.1 e.2.1) :
    (lifecycle.guarded G).Reach (s.run ops) := by
  induction ops generalizing s with
  | nil => exact hs
  | cons op ops ih =>
    have hfirst : G s op := h (s, op, s.apply op) List.mem_cons_self
    exact ih (.step hs ⟨rfl, hfirst⟩) fun e he => h e (List.mem_cons_of_mem _ he)

/-- A week for a piece of work, under a fixed deadline a week after instant zero. -/
def weekTask (base : ℤ) (hbase : 0 < base) : Task where
  ownerTeacherId := 9
  baseRewardPoints := base
  status := .published
  deadlineMode := .fixed
  fixedDeadlineAt := some (hours (24 * 7))
  durationMinutes := none
  gracePeriodMinutes := 1440
  claimCutoffMinutes := 60
  submissionSchemaVersion := some 1
  allowedFileTypes := [.csv]
  maxFileSizeBytes := 1000
  retentionPolicy := .days30
  base_reward_points := hbase
  duration_minutes := by simp
  grace_period_minutes := rfl
  claim_cutoff_minutes := by decide
  max_file_size_bytes := by decide

theorem base_pos : (0 : ℤ) < 50 := by decide

/-- Two assignments of one task, for a student with number 7. -/
def opening (base : ℤ) (hbase : 0 < base) : State where
  db := {
    users := Table.empty.put 7 ⟨.student, .active⟩
    tasks := Table.empty.put 1 (weekTask base hbase)
    collaborators := .empty
    assignments := (Table.empty.put 1 ⟨1, .available⟩).put 2 ⟨1, .available⟩
    claims := .empty
    submissions := .empty
    intents := .empty
    runs := .empty
    lockHistory := []
    points := ⟨.empty, .empty, .empty, .empty, .empty, .empty, .empty⟩ }
  now := 0
  applied := ∅

theorem opening_initial (base : ℤ) (hbase : 0 < base) : Initial (opening base hbase) := by
  refine ⟨fun a row hrow => ?_, rfl, rfl, rfl, rfl, rfl⟩
  change ((Table.empty.put 1 ⟨1, .available⟩).put 2 ⟨1, .available⟩).get a = some row at hrow
  rcases Table.get_put_eq_some hrow with ⟨_, rfl⟩ | ⟨_, hrow⟩
  · rfl
  · rcases Table.get_put_eq_some hrow with ⟨_, rfl⟩ | ⟨_, hrow⟩
    · rfl
    · rw [Table.get_empty] at hrow
      cases hrow

theorem reach_opening (base : ℤ) (hbase : 0 < base) (ops : List Op) :
    lifecycle.Reach ((opening base hbase).run ops) :=
  (run_trace _ ops).reach (.init (opening_initial base hbase))

/-- The student uploads a file of ten bytes for each intent, under a key of its own. -/
def submits (claim : ClaimId) (intents : List IntentId) : List Op :=
  intents.flatMap fun i => [.createIntent 7 claim i (List.replicate i 'k') .csv 10,
    .finalize 7 i i (some ⟨10, FileType.csv.contentType⟩)]

def passing : ValidationReport := ⟨[], []⟩

def failing : ValidationReport := ⟨[], [['x']]⟩

end Runs

end CampusQuest.Lifecycle
