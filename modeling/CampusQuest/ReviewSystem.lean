import CampusQuest.EvidenceService
import CampusQuest.ReviewLedger
import CampusQuest.Runs

/-!
The review of achievements as a system: any number of owners, operators and administrators
whose commands are transactions in any order, a clock that never goes back, checks that end
whenever they end, and the rest of the application, which changes accounts, grants, profiles
and drafts. An inversion of each command says what it may have done.
-/

namespace CampusQuest.Innovation

open Guards Tables Runs

structure ReviewWorld where
  db : ReviewDb
  now : Instant
  /-- The tokens handed out, each with its material. -/
  attempts : Table CheckToken EvidenceId

/-- A command with the ids that its database and its host draw for it. -/
inductive ReviewCall
  | applyQualification (actor : Actor) (version profileVersion : ℕ)
  | approveQualification (actor : Actor) (user : UserId) (version : ℕ)
  | workflow (actor : Actor) (projectId : ProjectId) (achievementId : AchievementId)
  | savedRevision (actor : Actor) (projectId : ProjectId) (achievementId : AchievementId)
      (payload : SavedRevisionCommand) (operation : ReviewOperation) (revisionId : RevisionId)
      (caseId : CaseId)
  | withdraw (actor : Actor) (projectId : ProjectId) (achievementId : AchievementId)
      (payload : WithdrawCommand)
  | listQueue (actor : Actor) (limit offset : ℕ)
  | claim (actor : Actor) (caseId : CaseId) (version : ℕ)
  | declareConflict (actor : Actor) (caseId : CaseId) (version : ℕ)
  | openDetail (actor : Actor) (caseId : CaseId)
  | detail (actor : Actor) (caseId : CaseId)
  | decision (actor : Actor) (caseId : CaseId) (payload : ReviewDecisionCommand)
  | openContent (actor : Actor) (caseId : CaseId) (evidenceId : EvidenceId)
  | readContent (actor : Actor) (caseId : CaseId) (version : ℕ)
  | createIntent (actor : Actor) (projectId : ProjectId) (achievementId : AchievementId)
      (payload : EvidenceIntentCreate) (evidenceId : EvidenceId) (objectKey : Text)
  | startCheck (actor : Actor) (projectId : ProjectId) (achievementId : AchievementId)
      (evidenceId : EvidenceId) (token : CheckToken)
  | finishCheck (actor : Actor) (projectId : ProjectId) (achievementId : AchievementId)
      (evidenceId : EvidenceId) (token : CheckToken) (outcome : CheckOutcome)
  | remove (actor : Actor) (projectId : ProjectId) (achievementId : AchievementId)
      (evidenceId : EvidenceId)

namespace ReviewCall

variable (digests : Fingerprints) (now : Instant) (db : ReviewDb)

def perform : ReviewCall → Answer ReviewDb
  | applyQualification actor version profileVersion =>
    db.applyQualification now actor version profileVersion
  | approveQualification actor user version => db.approveQualification actor user version
  | workflow actor projectId achievementId => db.workflow actor projectId achievementId
  | savedRevision actor projectId achievementId payload operation revisionId caseId =>
    db.savedRevision digests now actor projectId achievementId payload operation revisionId caseId
  | withdraw actor projectId achievementId payload =>
    db.withdraw actor projectId achievementId payload
  | listQueue actor limit offset => (db.listQueue actor limit offset).map fun _ => db
  | claim actor caseId version => db.claim actor caseId version
  | declareConflict actor caseId version => db.declareConflict now actor caseId version
  | openDetail actor caseId => (db.openDetail actor caseId).map fun _ => db
  | detail actor caseId => (db.detail actor caseId).map fun _ => db
  | decision actor caseId payload => db.decision digests now actor caseId payload
  | openContent actor caseId evidenceId =>
    (db.openContent actor caseId evidenceId).map fun _ => db
  | readContent actor caseId version => (db.readContent actor caseId version).map fun _ => db
  | createIntent actor projectId achievementId payload evidenceId objectKey =>
    db.createIntent digests now actor projectId achievementId payload evidenceId objectKey
  | startCheck actor projectId achievementId evidenceId token =>
    db.startCheck now actor projectId achievementId evidenceId token
  | finishCheck actor projectId achievementId evidenceId token outcome =>
    (db.finishCheck now actor projectId achievementId evidenceId token outcome).map Prod.fst
  | remove actor projectId achievementId evidenceId =>
    db.remove now actor projectId achievementId evidenceId

def after (call : ReviewCall) : ReviewDb :=
  match call.perform digests now db with
  | .ok db' => db'
  | .error _ => db

/-- The ids of new rows and the tokens of new checks were never drawn before. -/
def Fresh (w : ReviewWorld) : ReviewCall → Prop
  | savedRevision _ _ _ _ _ revisionId caseId =>
    w.db.revisions.get revisionId = none ∧ w.db.cases.get caseId = none
  | createIntent _ _ _ _ evidenceId _ => w.db.evidence.get evidenceId = none
  | startCheck _ _ _ _ token => w.attempts.get token = none
  | _ => True

def issued (attempts : Table CheckToken EvidenceId) : ReviewCall → Table CheckToken EvidenceId
  | startCheck _ _ _ evidenceId token => attempts.put token evidenceId
  | _ => attempts

end ReviewCall

/-- What the rest of the application may do. It writes neither the review nor the
qualifications, a project keeps its owner and an achievement its project. -/
structure Elsewhere (db db' : ReviewDb) : Prop where
  qualifications : db'.qualifications = db.qualifications
  workflows : db'.workflows = db.workflows
  revisions : db'.revisions = db.revisions
  cases : db'.cases = db.cases
  conflicts : db'.conflicts = db.conflicts
  evidence : db'.evidence = db.evidence
  projects : ∀ id p, db.projects.get id = some p →
    ∃ p', db'.projects.get id = some p' ∧ p'.ownerUserId = p.ownerUserId
  achievements : ∀ id a, db.achievements.get id = some a →
    ∃ a', db'.achievements.get id = some a' ∧ a'.projectId = a.projectId

inductive ReviewStep (digests : Fingerprints) : ReviewWorld → Option ReviewCall → ReviewWorld → Prop
  | call {w : ReviewWorld} {now : Instant} (c : ReviewCall) (hnow : w.now ≤ now)
      (hfresh : c.Fresh w) :
      ReviewStep digests w (some c) ⟨c.after digests now w.db, now, c.issued w.attempts⟩
  | elsewhere {w : ReviewWorld} {db : ReviewDb} (h : Elsewhere w.db db) :
      ReviewStep digests w none { w with db := db }

structure ReviewWorld.Initial (w : ReviewWorld) : Prop where
  workflows : w.db.workflows = .empty
  revisions : w.db.revisions = .empty
  cases : w.db.cases = .empty
  conflicts : w.db.conflicts = .empty
  evidence : w.db.evidence = .empty
  attempts : w.attempts = .empty

def reviewSystem (digests : Fingerprints) : System ReviewWorld (Option ReviewCall) where
  init := ReviewWorld.Initial
  step := ReviewStep digests

inductive Change (digests : Fingerprints) (now : Instant) (db : ReviewDb) :
    ReviewCall → ReviewDb → Prop
  | nothing (call : ReviewCall) : Change digests now db call db
  | qualified (call : ReviewCall) {user : UserId} {row : OwnerQualification}
      (h : (db.qualifications.get user).any (fun q => q.approved) = true → row.approved = true) :
      Change digests now db call
        { db with qualifications := db.qualifications.put user row }
  | looked (call : ReviewCall) (achievementId : AchievementId) :
      Change digests now db call (db.putWorkflow achievementId)
  | submitted {actor : Actor} {projectId : ProjectId} {achievementId : AchievementId}
      {payload : SavedRevisionCommand} {operation : ReviewOperation} {revisionId : RevisionId}
      {caseId : CaseId} {revision : AchievementRevision} {workflow : AchievementWorkflow}
      (h : db.Freezes digests now actor projectId achievementId payload operation revision
        workflow) :
      Change digests now db
        (.savedRevision actor projectId achievementId payload operation revisionId caseId)
        (db.putSubmission now achievementId revisionId caseId revision workflow)
  | withdrawn {actor : Actor} {projectId : ProjectId} {achievementId : AchievementId}
      {payload : WithdrawCommand} {case : AchievementReviewCase} {workflow : AchievementWorkflow}
      (hcase : db.cases.get payload.caseId = some case)
      (hachievement : case.achievementId = achievementId) (hstatus : case.status = .submitted)
      (hbefore : workflow = (db.workflows.get achievementId).getD newWorkflow)
      (hstate : workflow.firstReviewState = .submitted ∨ workflow.firstReviewState = .approved) :
      Change digests now db (.withdraw actor projectId achievementId payload)
        (db.putWithdrawal achievementId payload.caseId case workflow)
  | claimed {actor : Actor} {caseId : CaseId} {version : ℕ} {case : AchievementReviewCase}
      {workflow : AchievementWorkflow} {projectId : ProjectId} {owner : UserId}
      (hscope : db.Scoped actor caseId false case workflow projectId owner)
      (hstatus : case.status = .submitted)
      (hfree : (case.assignedUserId.any fun u => db.validAssignee projectId u) = false) :
      Change digests now db (.claim actor caseId version) (db.putClaim caseId case actor.userId)
  | recused {actor : Actor} {caseId : CaseId} {version : ℕ} {case : AchievementReviewCase}
      {workflow : AchievementWorkflow} {projectId : ProjectId} {owner : UserId}
      (hscope : db.Scoped actor caseId true case workflow projectId owner) :
      Change digests now db (.declareConflict actor caseId version)
        (db.putConflict now projectId actor.userId)
  | decided {actor : Actor} {caseId : CaseId} {payload : ReviewDecisionCommand}
      {case : AchievementReviewCase} {workflow : AchievementWorkflow} {projectId : ProjectId}
      {owner : UserId} {revision : AchievementRevision}
      (hscope : db.Scoped actor caseId false case workflow projectId owner)
      (hassigned : case.assignedUserId = some actor.userId)
      (hrevision : db.revisions.get case.revisionId = some revision)
      (hstatus : case.status = .submitted)
      (hstate : workflow.firstReviewState = ReviewDb.expectedState revision.operation) :
      Change digests now db (.decision actor caseId payload)
        (db.putDecision digests now caseId case revision.operation workflow payload)
  | created {actor : Actor} {projectId : ProjectId} {achievementId : AchievementId}
      {payload : EvidenceIntentCreate} {evidenceId : EvidenceId} {objectKey : Text}
      (hpending : db.pendingCase achievementId = none)
      (hkept : db.kept achievementId now < 5) :
      Change digests now db
        (.createIntent actor projectId achievementId payload evidenceId objectKey)
        (db.putMaterial evidenceId
          (ReviewDb.newMaterial digests now achievementId payload objectKey))
  | started {actor : Actor} {projectId : ProjectId} {achievementId : AchievementId}
      {evidenceId : EvidenceId} {token : CheckToken} {row : AchievementEvidence}
      (hrow : db.evidence.get evidenceId = some row)
      (hachievement : row.achievementId = achievementId) (hremoved : row.removedAt = none)
      (hsettled : row.state.settled = false) (hpending : db.pendingCase achievementId = none)
      (hexpires : now < row.expiresAt) :
      Change digests now db (.startCheck actor projectId achievementId evidenceId token)
        (db.putMaterial evidenceId
          { row with
            state := .checking token (now + checkLease)
            failureCode := none
            version := row.version + 1
            updatedAt := now })
  | finished {actor : Actor} {projectId : ProjectId} {achievementId : AchievementId}
      {evidenceId : EvidenceId} {token : CheckToken} {outcome : CheckOutcome}
      {row : AchievementEvidence} (hrow : db.evidence.get evidenceId = some row)
      (hachievement : row.achievementId = achievementId) (hremoved : row.removedAt = none)
      (htoken : row.state.checkToken = some token) (hpending : db.pendingCase achievementId = none) :
      Change digests now db
        (.finishCheck actor projectId achievementId evidenceId token outcome)
        (db.putMaterial evidenceId
          { row with
            state := outcome.state
            failureCode := outcome.failureCode
            version := row.version + 1
            updatedAt := now })
  | removed {actor : Actor} {projectId : ProjectId} {achievementId : AchievementId}
      {evidenceId : EvidenceId} {row : AchievementEvidence}
      (hrow : db.evidence.get evidenceId = some row)
      (hachievement : row.achievementId = achievementId) (hremoved : row.removedAt = none)
      (hfree : row.referenced = false) (hpending : db.pendingCase achievementId = none) :
      Change digests now db (.remove actor projectId achievementId evidenceId)
        (db.putMaterial evidenceId
          { row with removedAt := some now, version := row.version + 1, updatedAt := now })

section Inversion

variable {digests : Fingerprints} {now : Instant} {db db' : ReviewDb}

theorem Change.of_map {call : ReviewCall} {α : Type} {answer : Answer α}
    (h : answer.map (fun _ => db) = .ok db') : Change digests now db call db' := by
  cases answer with
  | error e => cases h
  | ok a =>
    cases h
    exact .nothing call

theorem change_of_perform {call : ReviewCall} (h : call.perform digests now db = .ok db') :
    Change digests now db call db' := by
  cases call with
  | applyQualification actor version profileVersion =>
    obtain ⟨row, rfl, hfree⟩ := ReviewDb.applyQualification_ok h
    refine .qualified _ fun happroved => ?_
    rw [hfree] at happroved
    cases happroved
  | approveQualification actor user version =>
    obtain ⟨row, happroved, rfl⟩ := ReviewDb.approveQualification_ok h
    exact .qualified _ fun _ => happroved
  | workflow actor projectId achievementId =>
    obtain ⟨_, _, h⟩ := bind_ok.mp h
    cases h
    exact .looked _ achievementId
  | savedRevision actor projectId achievementId payload operation revisionId caseId =>
    rcases ReviewDb.savedRevision_ok h with ⟨_, _, _, _, rfl⟩ | ⟨revision, workflow, hfreezes, rfl⟩
    · exact .looked _ achievementId
    · exact .submitted hfreezes
  | withdraw actor projectId achievementId payload =>
    obtain ⟨case, workflow, hcase, hachievement, hstatus, hbefore, hstate, rfl⟩ :=
      ReviewDb.withdraw_ok h
    exact .withdrawn hcase hachievement hstatus hbefore hstate
  | listQueue actor limit offset => exact .of_map h
  | claim actor caseId version =>
    obtain ⟨case, workflow, projectId, owner, hscope, hstatus, h⟩ := ReviewDb.claim_ok.mp h
    split at h
    next =>
      subst h
      exact .nothing _
    next =>
      obtain ⟨_, hfree, rfl⟩ := h
      exact .claimed hscope hstatus hfree
  | declareConflict actor caseId version =>
    obtain ⟨case, workflow, projectId, owner, hscope, _, rfl⟩ := ReviewDb.declareConflict_ok h
    exact .recused hscope
  | openDetail actor caseId => exact .of_map h
  | detail actor caseId => exact .of_map h
  | decision actor caseId payload =>
    obtain ⟨case, workflow, projectId, owner, hscope, hassigned, h⟩ := ReviewDb.decision_ok h
    split at h
    next =>
      obtain ⟨_, rfl⟩ := h
      exact .nothing _
    next =>
      obtain ⟨revision, hrevision, hstatus, hstate, _, _, rfl⟩ := h
      exact .decided hscope hassigned hrevision hstatus hstate
  | openContent actor caseId evidenceId => exact .of_map h
  | readContent actor caseId version => exact .of_map h
  | createIntent actor projectId achievementId payload evidenceId objectKey =>
    obtain ⟨hpending, rfl | ⟨hkept, rfl⟩⟩ := ReviewDb.createIntent_ok h
    · exact .nothing _
    · exact .created hpending hkept
  | startCheck actor projectId achievementId evidenceId token =>
    rcases ReviewDb.startCheck_ok h with
      rfl | ⟨row, hrow, hachievement, hremoved, hsettled, hpending, hexpires, rfl⟩
    · exact .nothing _
    · exact .started hrow hachievement hremoved hsettled hpending hexpires
  | finishCheck actor projectId achievementId evidenceId token outcome =>
    cases hfinish : db.finishCheck now actor projectId achievementId evidenceId token outcome with
    | error e =>
      simp only [ReviewCall.perform, hfinish] at h
      cases h
    | ok answer =>
      simp only [ReviewCall.perform, hfinish] at h
      cases h
      obtain ⟨row, hrow, hachievement, hremoved, htoken, hpending, heq⟩ :=
        ReviewDb.finishCheck_ok hfinish
      rw [heq]
      exact .finished hrow hachievement hremoved htoken hpending
  | remove actor projectId achievementId evidenceId =>
    obtain ⟨row, hrow, hachievement, hremoved, hfree, hpending, rfl⟩ := ReviewDb.remove_ok h
    exact .removed hrow hachievement hremoved hfree hpending

theorem change_after (call : ReviewCall) : Change digests now db call (call.after digests now db) := by
  unfold ReviewCall.after
  cases h : call.perform digests now db with
  | error e => exact .nothing call
  | ok db' => exact change_of_perform h

/-- One more command that is not refused. -/
theorem reach_call {w : ReviewWorld} (hw : (reviewSystem digests).Reach w) (c : ReviewCall)
    (hnow : w.now ≤ now) (hfresh : c.Fresh w) (h : c.perform digests now w.db = .ok db) :
    (reviewSystem digests).Reach ⟨db, now, c.issued w.attempts⟩ := by
  have hafter : c.after digests now w.db = db := by
    unfold ReviewCall.after
    rw [h]
  have hstep : ReviewStep digests w (some c) _ := .call c hnow hfresh
  rw [hafter] at hstep
  exact .step hw hstep

end Inversion

end CampusQuest.Innovation
