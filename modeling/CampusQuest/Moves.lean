import CampusQuest.LifecycleSystem

/-!
What one operation does to one row. A claim is made once and then takes one of a few moves,
each with the checks that allowed it, and so does a submission; rows are never deleted.
Invariants of the lifecycle are proved by cases on these moves.
-/

namespace CampusQuest.Lifecycle

open Tables Runs

inductive ClaimMade (s : State) : Op → ClaimId → AssignmentClaim → Prop
  | claimed (user : UserId) (taskId : TaskId) (id : ClaimId) (choice : Option AssignmentId)
      (a : AssignmentId) (row : Assignment) (task : Task) (deadlines : ClaimDeadlines)
      (htask : s.db.tasks.get taskId = some task) (hassignment : s.db.assignments.get a = some row)
      (havailable : row.availabilityStatus = .available) (hgave : ¬ s.db.GaveBack user a)
      (hfresh : s.db.claims.get id = none) :
      ClaimMade s (.claim user taskId id choice) id (newClaim a taskId task user s.now deadlines)

inductive ClaimMove (s : State) (db' : Db) :
    Op → ClaimId → AssignmentClaim → AssignmentClaim → Prop
  | same (op : Op) (k : ClaimId) (c : AssignmentClaim) : ClaimMove s db' op k c c
  | ended (op : Op) (k : ClaimId) (c : AssignmentClaim) (status : ClaimStatus) (t : Instant)
      (hends : op.ends = true) (hactionable : c.status.actionable = true)
      (hstatus : status.reassignExcluded = true) :
      ClaimMove s db' op k c (c.terminate status t)
  | finalized (user : UserId) (intentId : IntentId) (id : SubmissionId) (head : Option ObjectHead)
      (k : ClaimId) (c : AssignmentClaim) (r : Submission)
      (hactionable : c.status.actionable = true) (hopen : submissionWindowOpen c s.now = true)
      (hnew : db'.submissions.get id = some r) (hclaim : r.claimId = k)
      (hversion : r.version = s.db.maxVersion k + 1) :
      ClaimMove s db' (.finalize user intentId id head) k c (c.withLatest id)
  | validating (id : SubmissionId) (run : RunId) (row : Submission) (c : AssignmentClaim)
      (hrow : s.db.submissions.get id = some row) (hopen : row.validationStatus.terminal = false)
      (hfresh : s.db.runs.get run = none) (hactionable : c.status.actionable = true)
      (hguard : s.db.unfinishedCleanups row.claimId = ∅) :
      ClaimMove s db' (.startValidation id run) row.claimId c (c.withStatus .validating)
  | restored (run : RunId) (report : ValidationReport) (detected : Option FileType)
      (row : SubmissionValidation) (k : ClaimId) (c : AssignmentClaim) (status : ClaimStatus)
      (hrun : s.db.runs.get run = some row) (hfailed : report.verdict = .validationFailed)
      (hlatest : c.latestSubmissionId = some row.submissionId)
      (hvalidating : c.status = .validating)
      (hstatus : status = if c.revisionDeadlineAt.isSome then .revisionRequired else .claimed) :
      ClaimMove s db' (.finishValidation run report detected) k c (c.withStatus status)
  | locked (id : SubmissionId) (row : Submission) (c locked : AssignmentClaim)
      (rows : List RewardLockHistory) (hrow : s.db.submissions.get id = some row)
      (hvalidated : row.validationStatus = .validated) (hactive : c.status.active = true)
      (hlocked : establishLock row.claimId c id row = .ok (locked, rows))
      (hguard : ¬ s.db.EntryRefused row.claimId locked) :
      ClaimMove s db' (.onValidationPassed id) row.claimId c
        (bumpLatest s.db locked.entered id row)
  | returned (actor : Actor) (id : SubmissionId) (note : Option Text) (row : Submission)
      (c : AssignmentClaim) (hreviewable : Reviewable s.db actor id row c) :
      ClaimMove s db' (.requireRevision actor id note) row.claimId c (c.returned s.now)
  | unlocked (actor : Actor) (id : SubmissionId) (reason : Option Text) (row : Submission)
      (c : AssignmentClaim) (hreviewable : Reviewable s.db actor id row c)
      (hlock : c.rewardLockStatus = .provisional) :
      ClaimMove s db' (.invalidate actor id reason) row.claimId c (c.unlock.returned s.now)
  | approved (actor : Actor) (id : SubmissionId) (row : Submission) (c : AssignmentClaim)
      (hreviewable : Reviewable s.db actor id row c) (hlock : c.rewardLockStatus = .provisional) :
      ClaimMove s db' (.approve actor id) row.claimId c (c.complete s.now)

/-- The submission that a committed finalize makes, and the claim that it then leads. -/
inductive SubmissionMade (s : State) (db' : Db) : Op → SubmissionId → Submission → Prop
  | finalized (user : UserId) (intentId : IntentId) (id : SubmissionId) (head : Option ObjectHead)
      (intent : UploadIntent) (claim : AssignmentClaim) (size : ℤ) (policy : RetentionPolicy)
      (hsize : 0 ≤ size) (hclaim : s.db.claims.get intent.claimId = some claim)
      (hactionable : claim.status.actionable = true)
      (hopen : submissionWindowOpen claim s.now = true)
      (hlatest : db'.claims.get intent.claimId = some (claim.withLatest id))
      (hintent : OpenIntent s.db s.now intentId intent claim)
      (hkey : ¬ s.db.KeySubmitted intent.objectKey)
      (hconsumed : db'.intents.get intentId = some (intent.consume s.now (some id))) :
      SubmissionMade s db' (.finalize user intentId id head) id
        (newSubmission intent (s.db.maxVersion intent.claimId) size s.now policy hsize)

inductive SubmissionMove (s : State) : Op → SubmissionId → Submission → Submission → Prop
  | same (op : Op) (id : SubmissionId) (r : Submission) : SubmissionMove s op id r r
  | cleaned (id : SubmissionId) (r : Submission) (hold : Bool) (lease : CleanupLease) :
      SubmissionMove s (.cleanup id hold lease) id r (r.cleaned hold lease)
  | started (id : SubmissionId) (run : RunId) (r : Submission)
      (hopen : r.validationStatus.terminal = false) :
      SubmissionMove s (.startValidation id run) id r (r.withStatus .validating)
  | finished (run : RunId) (report : ValidationReport) (detected : Option FileType)
      (row : SubmissionValidation) (r : Submission) (hrun : s.db.runs.get run = some row)
      (hunfinished : row.finishedAt = none) :
      SubmissionMove s (.finishValidation run report detected) row.submissionId r
        (r.finish report detected)
  | reviewed (op : Op) (id : SubmissionId) (r : Submission) (status : ReviewStatus)
      (reviewer : UserId) (t : Instant) (note : Option Text)
      (hvalidated : r.validationStatus = .validated) :
      SubmissionMove s op id r (r.review status reviewer t note)

/-- The intent that a committed grant makes, under a key that no intent has. -/
inductive IntentMade (s : State) : Op → IntentId → UploadIntent → Prop
  | granted (user : UserId) (claim : ClaimId) (id : IntentId) (objectKey : Text)
      (declaredType : FileType) (size : ℤ) (hsize : 0 ≤ size)
      (hkey : ¬ s.db.KeyGranted objectKey) :
      IntentMade s (.createIntent user claim id objectKey declaredType size) id
        (newIntent claim objectKey declaredType size (s.now + defaultIntentTtl) hsize)

/-- A move of an intent that is there; a finalized one leads to the submission it made. -/
inductive IntentMove (s : State) (db' : Db) : Op → IntentId → UploadIntent → UploadIntent → Prop
  | same (op : Op) (i : IntentId) (intent : UploadIntent) : IntentMove s db' op i intent intent
  | cleaned (i : IntentId) (intent : UploadIntent) (lease : CleanupLease) :
      IntentMove s db' (.cleanupIntent i lease) i intent (intent.withLease lease)
  | burned (user : UserId) (i : IntentId) (id : SubmissionId) (head : Option ObjectHead)
      (intent : UploadIntent) (claim : AssignmentClaim)
      (hopen : OpenIntent s.db s.now i intent claim) :
      IntentMove s db' (.finalize user i id head) i intent (intent.consume s.now none)
  | finalized (user : UserId) (i : IntentId) (id : SubmissionId) (head : Option ObjectHead)
      (intent : UploadIntent) (claim : AssignmentClaim) (r : Submission)
      (hopen : OpenIntent s.db s.now i intent claim) (hfresh : s.db.submissions.get id = none)
      (hnew : db'.submissions.get id = some r) (hkey : r.objectKey = intent.objectKey)
      (hclaim : r.claimId = intent.claimId) :
      IntentMove s db' (.finalize user i id head) i intent (intent.consume s.now (some id))

section Frames

variable (db : Db) (a : AssignmentId) (status : AssignmentAvailability)

@[simp] theorem leaveOccupied_claims : (db.leaveOccupied a status).claims = db.claims := by
  unfold Db.leaveOccupied Db.setAvailability
  split
  next => split <;> rfl
  next => rfl

@[simp] theorem leaveOccupied_submissions :
    (db.leaveOccupied a status).submissions = db.submissions := by
  unfold Db.leaveOccupied Db.setAvailability
  split
  next => split <;> rfl
  next => rfl

@[simp] theorem leaveOccupied_runs : (db.leaveOccupied a status).runs = db.runs := by
  unfold Db.leaveOccupied Db.setAvailability
  split
  next => split <;> rfl
  next => rfl

@[simp] theorem leaveOccupied_tasks : (db.leaveOccupied a status).tasks = db.tasks := by
  unfold Db.leaveOccupied Db.setAvailability
  split
  next => split <;> rfl
  next => rfl

@[simp] theorem leaveOccupied_intents : (db.leaveOccupied a status).intents = db.intents := by
  unfold Db.leaveOccupied Db.setAvailability
  split
  next => split <;> rfl
  next => rfl

end Frames

section Projection

variable {s : State} {op : Op} {db' : Db} {k : ClaimId} {id : SubmissionId}

/-- Replacing one claim by a move of it moves every claim. -/
theorem put_claim_move {i : ClaimId} {claim claim' c : AssignmentClaim}
    (hclaim : s.db.claims.get i = some claim) (hmove : ClaimMove s db' op i claim claim')
    (hget : s.db.claims.get k = some c) :
    ∃ c', (s.db.claims.put i claim').get k = some c' ∧ ClaimMove s db' op k c c' := by
  by_cases hk : k = i
  · subst hk
    rw [hclaim] at hget
    cases hget
    exact ⟨claim', Table.get_put_self _ _ _, hmove⟩
  · exact ⟨c, (Table.get_put_of_ne _ _ hk).trans hget, .same op k c⟩

theorem Effect.claim_move (h : Effect s op db') {c : AssignmentClaim}
    (hget : s.db.claims.get k = some c) :
    ∃ c', db'.claims.get k = some c' ∧ ClaimMove s db' op k c c' := by
  cases h with
  | core _ hcore =>
    rw [hcore.claims]
    exact ⟨c, hget, .same op k c⟩
  | imported | cleaned | intentCleaned | intentMade | intentBurned => exact ⟨c, hget, .same _ k c⟩
  | claimed user taskId i choice a row task deadlines _ _ _ _ _ _ hfresh =>
    exact ⟨c, Table.get_put_of_fresh hfresh hget, .same _ k c⟩
  | ended _ i claim status t hends hclaim hactionable hstatus =>
    simp only [Db.putClaim, leaveOccupied_claims]
    exact put_claim_move hclaim (.ended op i claim status t hends hactionable hstatus) hget
  | finalized user intentId i head intent claim size policy hsize hclaim hactionable hopen hfresh =>
    exact put_claim_move hclaim (.finalized user intentId i head _ claim _ hactionable hopen
      (Table.get_put_self _ _ _) rfl rfl) hget
  | started => exact ⟨c, hget, .same _ k c⟩
  | startedMoving i run row claim hrow hopen hfresh hclaim hactionable hguard =>
    exact put_claim_move hclaim (.validating i run row claim hrow hopen hfresh hactionable hguard)
      hget
  | finished => exact ⟨c, hget, .same _ k c⟩
  | finishedRestoring run report detected row sub claim status hrun _ _ hfailed hclaim hlatest
      hvalidating hstatus =>
    exact put_claim_move hclaim (.restored run report detected row _ claim status hrun hfailed
      hlatest hvalidating hstatus) hget
  | locked i row claim locked rows hrow hclaim hvalidated hactive hlocked hguard =>
    exact put_claim_move hclaim (.locked i row claim locked rows hrow hvalidated hactive hlocked
      hguard) hget
  | returned actor i note row claim hreviewable =>
    exact put_claim_move hreviewable.held (.returned actor i note row claim hreviewable) hget
  | invalidated actor i reason row claim rows hreviewable hlock =>
    exact put_claim_move hreviewable.held (.unlocked actor i reason row claim hreviewable hlock)
      hget
  | approved actor i row claim rows paid hreviewable hlock =>
    simp only [Db.putClaim, Db.putSubmission, leaveOccupied_claims]
    exact put_claim_move hreviewable.held (.approved actor i row claim hreviewable hlock) hget

/-- Only a claim operation makes a claim. -/
theorem Effect.claim_made (h : Effect s op db') {c : AssignmentClaim}
    (hnone : s.db.claims.get k = none) (hget : db'.claims.get k = some c) :
    ClaimMade s op k c := by
  cases h with
  | core _ hcore =>
    rw [hcore.claims, hnone] at hget
    cases hget
  | claimed user taskId i choice a row task deadlines htask hassignment havailable hgave =>
    rcases Table.get_put_eq_some hget with ⟨rfl, rfl⟩ | ⟨_, hold⟩
    · exact .claimed user taskId k choice a row task deadlines htask hassignment havailable hgave
        hnone
    · have hold : s.db.claims.get k = some c := hold
      rw [hnone] at hold
      cases hold
  | imported | cleaned | intentCleaned | intentMade | intentBurned | started | finished =>
    have hget : s.db.claims.get k = some c := hget
    rw [hnone] at hget
    cases hget
  | ended _ i claim status t _ hclaim =>
    simp only [Db.putClaim, leaveOccupied_claims] at hget
    exact absurd hnone (Table.get_ne_none_of_put hclaim hget)
  | approved actor i row claim rows paid hreviewable =>
    simp only [Db.putClaim, Db.putSubmission, leaveOccupied_claims] at hget
    exact absurd hnone (Table.get_ne_none_of_put hreviewable.held hget)
  | finalized user intentId i head intent claim size policy hsize hclaim =>
    exact absurd hnone (Table.get_ne_none_of_put hclaim hget)
  | startedMoving i run row claim hrow hopen hfresh hclaim =>
    exact absurd hnone (Table.get_ne_none_of_put hclaim hget)
  | finishedRestoring run report detected row sub claim status _ _ _ _ hclaim =>
    exact absurd hnone (Table.get_ne_none_of_put hclaim hget)
  | locked i row claim locked rows hrow hclaim => exact absurd hnone (Table.get_ne_none_of_put hclaim hget)
  | returned actor i note row claim hreviewable =>
    exact absurd hnone (Table.get_ne_none_of_put hreviewable.held hget)
  | invalidated actor i reason row claim rows hreviewable =>
    exact absurd hnone (Table.get_ne_none_of_put hreviewable.held hget)

/-- Replacing one submission by a move of it moves every submission. -/
theorem put_submission_move {i : SubmissionId} {row row' r : Submission}
    (hrow : s.db.submissions.get i = some row) (hmove : SubmissionMove s op i row row')
    (hget : s.db.submissions.get id = some r) :
    ∃ r', (s.db.submissions.put i row').get id = some r' ∧ SubmissionMove s op id r r' := by
  by_cases hid : id = i
  · subst hid
    rw [hrow] at hget
    cases hget
    exact ⟨row', Table.get_put_self _ _ _, hmove⟩
  · exact ⟨r, (Table.get_put_of_ne _ _ hid).trans hget, .same op id r⟩

theorem Effect.submission_move (h : Effect s op db') {r : Submission}
    (hget : s.db.submissions.get id = some r) :
    ∃ r', db'.submissions.get id = some r' ∧ SubmissionMove s op id r r' := by
  cases h with
  | core _ hcore =>
    rw [hcore.submissions]
    exact ⟨r, hget, .same op id r⟩
  | imported | intentCleaned | intentMade | intentBurned => exact ⟨r, hget, .same _ id r⟩
  | cleaned i hold lease row hrow =>
    exact put_submission_move hrow (.cleaned i row hold lease) hget
  | claimed => exact ⟨r, hget, .same _ id r⟩
  | ended =>
    simp only [Db.putClaim, leaveOccupied_submissions]
    exact ⟨r, hget, .same op id r⟩
  | finalized user intentId i head intent claim size policy hsize _ _ _ hfresh =>
    exact ⟨r, Table.get_put_of_fresh hfresh hget, .same _ id r⟩
  | started i run row hrow hopen =>
    exact put_submission_move hrow (.started i run row hopen) hget
  | startedMoving i run row claim hrow hopen =>
    exact put_submission_move hrow (.started i run row hopen) hget
  | finished run report detected row sub hrun hunfinished hsub =>
    exact put_submission_move hsub (.finished run report detected row sub hrun hunfinished) hget
  | finishedRestoring run report detected row sub claim status hrun hunfinished hsub =>
    exact put_submission_move hsub (.finished run report detected row sub hrun hunfinished) hget
  | locked => exact ⟨r, hget, .same _ id r⟩
  | returned actor i note row claim hreviewable =>
    exact put_submission_move hreviewable.found (.reviewed _ i row _ _ _ _ hreviewable.validated)
      hget
  | invalidated actor i reason row claim rows hreviewable =>
    exact put_submission_move hreviewable.found (.reviewed _ i row _ _ _ _ hreviewable.validated)
      hget
  | approved actor i row claim rows paid hreviewable =>
    simp only [Db.putClaim, Db.putSubmission, leaveOccupied_submissions]
    exact put_submission_move hreviewable.found (.reviewed _ i row _ _ _ _ hreviewable.validated)
      hget

/-- Only a finalize makes a submission. -/
theorem Effect.submission_made (h : Effect s op db') {r : Submission}
    (hnone : s.db.submissions.get id = none) (hget : db'.submissions.get id = some r) :
    SubmissionMade s db' op id r := by
  cases h with
  | core _ hcore =>
    rw [hcore.submissions, hnone] at hget
    cases hget
  | finalized user intentId i head intent claim size policy hsize hclaim hactionable hopen _ hintent
      hkey =>
    rcases Table.get_put_eq_some hget with ⟨rfl, rfl⟩ | ⟨_, hold⟩
    · exact .finalized user intentId id head intent claim size policy hsize hclaim hactionable hopen
        (Table.get_put_self _ _ _) hintent hkey (Table.get_put_self _ _ _)
    · have hold : s.db.submissions.get id = some r := hold
      rw [hnone] at hold
      cases hold
  | imported | intentCleaned | intentMade | intentBurned | claimed | locked =>
    have hget : s.db.submissions.get id = some r := hget
    rw [hnone] at hget
    cases hget
  | ended =>
    simp only [Db.putClaim, leaveOccupied_submissions] at hget
    rw [hnone] at hget
    cases hget
  | cleaned i hold lease row hrow =>
    exact absurd hnone (Table.get_ne_none_of_put hrow hget)
  | started i run row hrow => exact absurd hnone (Table.get_ne_none_of_put hrow hget)
  | startedMoving i run row claim hrow => exact absurd hnone (Table.get_ne_none_of_put hrow hget)
  | finished run report detected row sub _ _ hsub => exact absurd hnone (Table.get_ne_none_of_put hsub hget)
  | finishedRestoring run report detected row sub claim status _ _ hsub =>
    exact absurd hnone (Table.get_ne_none_of_put hsub hget)
  | returned actor i note row claim hreviewable =>
    exact absurd hnone (Table.get_ne_none_of_put hreviewable.found hget)
  | invalidated actor i reason row claim rows hreviewable =>
    exact absurd hnone (Table.get_ne_none_of_put hreviewable.found hget)
  | approved actor i row claim rows paid hreviewable =>
    simp only [Db.putClaim, Db.putSubmission, leaveOccupied_submissions] at hget
    exact absurd hnone (Table.get_ne_none_of_put hreviewable.found hget)

/-- Replacing one intent by a move of it moves every intent. -/
theorem put_intent_move {i j : IntentId} {intent intent' x : UploadIntent}
    (hintent : s.db.intents.get i = some intent) (hmove : IntentMove s db' op i intent intent')
    (hget : s.db.intents.get j = some x) :
    ∃ x', (s.db.intents.put i intent').get j = some x' ∧ IntentMove s db' op j x x' := by
  by_cases hj : j = i
  · subst hj
    rw [hintent] at hget
    cases hget
    exact ⟨intent', Table.get_put_self _ _ _, hmove⟩
  · exact ⟨x, (Table.get_put_of_ne _ _ hj).trans hget, .same op j x⟩

theorem Effect.intent_move (h : Effect s op db') {j : IntentId} {x : UploadIntent}
    (hget : s.db.intents.get j = some x) :
    ∃ x', db'.intents.get j = some x' ∧ IntentMove s db' op j x x' := by
  cases h with
  | core _ hcore =>
    rw [hcore.intents]
    exact ⟨x, hget, .same op j x⟩
  | imported | cleaned | claimed | started | startedMoving | finished | finishedRestoring | locked
    | returned | invalidated => exact ⟨x, hget, .same _ j x⟩
  | ended =>
    simp only [Db.putClaim, leaveOccupied_intents]
    exact ⟨x, hget, .same op j x⟩
  | approved =>
    simp only [Db.putClaim, Db.putSubmission, leaveOccupied_intents]
    exact ⟨x, hget, .same _ j x⟩
  | intentCleaned i lease intent hintent =>
    exact put_intent_move hintent (.cleaned i intent lease) hget
  | intentMade user claim i objectKey declaredType size hsize hfresh =>
    exact ⟨x, Table.get_put_of_fresh hfresh hget, .same _ j x⟩
  | intentBurned user i id head intent claim hopen =>
    exact put_intent_move hopen.found (.burned user i id head intent claim hopen) hget
  | finalized user i id head intent claim size policy hsize _ _ _ hfresh hopen =>
    exact put_intent_move hopen.found (.finalized user i id head intent claim _ hopen hfresh
      (Table.get_put_self _ _ _) rfl rfl) hget

/-- Only a grant makes an intent. -/
theorem Effect.intent_made (h : Effect s op db') {j : IntentId} {x : UploadIntent}
    (hnone : s.db.intents.get j = none) (hget : db'.intents.get j = some x) :
    IntentMade s op j x := by
  cases h with
  | core _ hcore =>
    rw [hcore.intents, hnone] at hget
    cases hget
  | imported | cleaned | claimed | started | startedMoving | finished | finishedRestoring | locked
    | returned | invalidated =>
    have hget : s.db.intents.get j = some x := hget
    rw [hnone] at hget
    cases hget
  | ended =>
    simp only [Db.putClaim, leaveOccupied_intents] at hget
    rw [hnone] at hget
    cases hget
  | approved =>
    simp only [Db.putClaim, Db.putSubmission, leaveOccupied_intents] at hget
    rw [hnone] at hget
    cases hget
  | intentCleaned i lease intent hintent => exact absurd hnone (Table.get_ne_none_of_put hintent hget)
  | intentMade user claim i objectKey declaredType size hsize hfresh hkey =>
    rcases Table.get_put_eq_some hget with ⟨rfl, rfl⟩ | ⟨_, hold⟩
    · exact .granted user claim j objectKey declaredType size hsize hkey
    · rw [hnone] at hold
      cases hold
  | intentBurned user i id head intent claim hopen =>
    exact absurd hnone (Table.get_ne_none_of_put hopen.found hget)
  | finalized user i id head intent claim size policy hsize _ _ _ _ hopen =>
    exact absurd hnone (Table.get_ne_none_of_put hopen.found hget)

/-- A run was started by this operation on a submission that was not terminal, or it was
there for the same submission, and then it is as before or has just been finished. -/
theorem Effect.run_cases (h : Effect s op db') {run : RunId} {row' : SubmissionValidation}
    (hget : db'.runs.get run = some row') :
    (∃ i r, op = .startValidation i run ∧ s.db.submissions.get i = some r ∧
      r.validationStatus.terminal = false ∧ row' = newRun i s.now) ∨
    ∃ row, s.db.runs.get run = some row ∧ (row' = row ∨
      ∃ report t, row.finishedAt = none ∧ row' = row.finish report t) := by
  have hput : ∀ {i x}, (s.db.runs.put i x).get run = some row' →
      (run = i ∧ row' = x) ∨ ∃ row, s.db.runs.get run = some row ∧ (row' = row ∨
        ∃ report t, row.finishedAt = none ∧ row' = row.finish report t) := by
    intro i x hx
    rcases Table.get_put_eq_some hx with hnew | ⟨_, hold⟩
    · exact Or.inl hnew
    · exact Or.inr ⟨row', hold, Or.inl rfl⟩
  cases h with
  | core _ hcore =>
    rw [hcore.runs] at hget
    exact Or.inr ⟨row', hget, Or.inl rfl⟩
  | ended =>
    simp only [Db.putClaim, leaveOccupied_runs] at hget
    exact Or.inr ⟨row', hget, Or.inl rfl⟩
  | approved =>
    simp only [Db.putClaim, Db.putSubmission, leaveOccupied_runs] at hget
    exact Or.inr ⟨row', hget, Or.inl rfl⟩
  | started i run' r hr hopen hfresh =>
    rcases hput hget with ⟨rfl, rfl⟩ | hold
    · exact Or.inl ⟨i, r, rfl, hr, hopen, rfl⟩
    · exact Or.inr hold
  | startedMoving i run' r claim hr hopen hfresh =>
    rcases hput hget with ⟨rfl, rfl⟩ | hold
    · exact Or.inl ⟨i, r, rfl, hr, hopen, rfl⟩
    · exact Or.inr hold
  | finished run' report detected row sub hrun hunfinished =>
    rcases hput hget with ⟨rfl, rfl⟩ | hold
    · exact Or.inr ⟨row, hrun, Or.inr ⟨report, s.now, hunfinished, rfl⟩⟩
    · exact Or.inr hold
  | finishedRestoring run' report detected row sub claim status hrun hunfinished =>
    rcases hput hget with ⟨rfl, rfl⟩ | hold
    · exact Or.inr ⟨row, hrun, Or.inr ⟨report, s.now, hunfinished, rfl⟩⟩
    · exact Or.inr hold
  | imported | cleaned | intentCleaned | intentMade | intentBurned | claimed | finalized | locked
    | returned | invalidated => exact Or.inr ⟨row', hget, Or.inl rfl⟩

end Projection

end CampusQuest.Lifecycle
