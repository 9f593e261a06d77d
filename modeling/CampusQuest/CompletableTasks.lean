import CampusQuest.Runs
import CampusQuest.TaskService

/-!
Which published tasks can be completed. The schema of a task is parsed for the first time when
a submission of it is validated, so a run keeps every published task completable exactly while
each first publish is of a task whose schema parses and admits one of its file types.
-/

namespace CampusQuest.Tasks

open Tables Runs System Guards
open Lifecycle (FileType TaskStatus DeadlineMode)

/-- The schema of the task, if it carries one, parses and admits one of its file types. -/
def TaskRow.Completable (row : TaskRow) : Prop :=
  ∀ raw, row.submissionSchema = some raw → ∃ schema, SubmissionSchema.parse (.obj raw) = .ok schema ∧
    ∃ format ∈ schema.allowedFormats, fileTypeCode format ∈ row.allowedFileTypes

def Db.AllCompletable (db : Db) : Prop :=
  ∀ id task, db.tasks.get id = some task → task.1.status = .published → task.1.Completable

inductive Op
  | create (actor : Actor) (id : TaskId) (command : CreateTask)
  | update (actor : Actor) (id : TaskId) (command : UpdateTask)
  | publish (now after : Instant) (actor : Actor) (id : TaskId)
  | pause (now : Instant) (actor : Actor) (id : TaskId)
  | resume (now : Instant) (actor : Actor) (id : TaskId)
  | close (now : Instant) (actor : Actor) (id : TaskId)
  | archive (now : Instant) (actor : Actor) (id : TaskId)
  | units (rows : List TaskUnit)

def Db.commit {α : Type} (db : Db) : Answer (α × Db) → Db
  | .ok (_, db') => db'
  | .error _ => db

def Db.apply (svc : TaskService) (db : Db) : Op → Db
  | .create actor id command => db.commit (svc.createTask db actor id command)
  | .update actor id command => db.commit (svc.updateTask db actor id command)
  | .publish now after actor id => db.commit (svc.publishTask db now after actor id)
  | .pause now actor id => db.commit (svc.pauseTask db now actor id)
  | .resume now actor id => db.commit (svc.resumeTask db now actor id)
  | .close now actor id => db.commit (svc.closeTask db now actor id)
  | .archive now actor id => db.commit (svc.archiveTask db now actor id)
  | .units rows => { db with units := rows }

/-- The task service over any number of calls, from no task at all; imports move the units. -/
def taskSystem (svc : TaskService) : System Db Op :=
  .ofFun (fun db => db.tasks = .empty) (Db.apply svc)

def TaskRow.DeadlineAhead (row : TaskRow) (now : Instant) : Prop :=
  match row.deadlineMode with
  | .fixed => ∃ deadline, row.fixedDeadlineAt = some deadline ∧ now < deadline ∧
      now + minutes row.claimCutoffMinutes ≤ deadline
  | .relative => ∃ m, row.durationMinutes = some m ∧ 0 < m

structure Publishable (svc : TaskService) (row : TaskRow) (now : Instant) : Prop where
  reward : 0 < row.baseRewardPoints
  deadline : row.DeadlineAhead now
  schema_free : row.documents ≠ [] → row.hasSchema = false
  types : row.allowedFileTypes ≠ []
  supported : ∀ code ∈ row.allowedFileTypes, code ∈ supportedFileTypes
  one_family : row.structured = [] ∨ row.documents = []
  size : 0 < row.maxFileSizeBytes ∧ row.maxFileSizeBytes ≤ svc.maxUploadBytes

section Gate

variable {svc : TaskService} {row : TaskRow} {now : Instant} {u : PUnit}

theorem validateDeadline_ok : validateDeadline row now = .ok u ↔ row.DeadlineAhead now := by
  unfold validateDeadline TaskRow.DeadlineAhead
  cases row.deadlineMode with
  | fixed =>
    dsimp only
    rw [orRefuse_bind_ok]
    refine exists_congr fun deadline => and_congr_right fun _ => ?_
    rw [ensure_bind_ok, ensure_ok]
  | relative =>
    dsimp only
    cases row.durationMinutes with
    | none => simp
    | some m => simp

theorem validateFilePolicy_ok : validateFilePolicy row = .ok u ↔
    (row.documents ≠ [] → row.hasSchema = false) ∧ row.allowedFileTypes ≠ [] ∧
      (∀ code ∈ row.allowedFileTypes, code ∈ supportedFileTypes) ∧
      (row.structured = [] ∨ row.documents = []) := by
  unfold validateFilePolicy
  rw [ensure_bind_ok, ensure_bind_ok, ensure_bind_ok, ensure_bind_ok, ensure_ok]
  have hsupported : row.allowedFileTypes.filter (· ∉ supportedFileTypes) = [] ↔
      ∀ code ∈ row.allowedFileTypes, code ∈ supportedFileTypes := by
    simp [List.filter_eq_nil_iff]
  have hschema : ¬ (row.documents ≠ [] ∧ row.hasSchema = true) ↔
      (row.documents ≠ [] → row.hasSchema = false) := by
    rw [not_and, Bool.not_eq_true]
  have hfamily : ¬ (row.structured ≠ [] ∧ row.documents ≠ []) ↔
      row.structured = [] ∨ row.documents = [] := by
    rw [← not_or, not_not]
  have hnever : ¬ (row.documents ≠ [] ∧ row.documents = []) := fun h => h.1 h.2
  rw [hsupported, hschema, hfamily, and_iff_left hnever]

/-- The gate lets exactly the publishable tasks pass. -/
theorem validatePublishable_ok :
    svc.validatePublishable row now = .ok u ↔ Publishable svc row now := by
  unfold TaskService.validatePublishable
  rw [ensure_bind_ok]
  constructor
  · rintro ⟨hreward, h⟩
    obtain ⟨_, hdeadline, h⟩ := bind_ok.mp h
    obtain ⟨_, hfiles, h⟩ := bind_ok.mp h
    obtain ⟨hschema, htypes, hsupported, hfamily⟩ := validateFilePolicy_ok.mp hfiles
    obtain ⟨_, hsize, _⟩ := bind_ok.mp h
    unfold TaskService.validateSizeCap at hsize
    obtain ⟨hsize, _⟩ := ensure_bind_ok.mp hsize
    exact ⟨hreward, validateDeadline_ok.mp hdeadline, hschema, htypes, hsupported, hfamily, hsize⟩
  · intro h
    refine ⟨h.reward, bind_ok.mpr ⟨(), validateDeadline_ok.mpr h.deadline, bind_ok.mpr
      ⟨(), validateFilePolicy_ok.mpr ⟨h.schema_free, h.types, h.supported, h.one_family⟩, ?_⟩⟩⟩
    refine bind_ok.mpr ⟨row.maxFileSizeBytes, ?_, rfl⟩
    exact ensure_bind_ok.mpr ⟨h.size, rfl⟩

end Gate

section Outcomes

variable {svc : TaskService} {db db' : Db} {row row' : TaskRow} {id : TaskId} {actor : Actor}
  {now : Instant}

theorem store_ok : svc.store db id row = .ok db' ↔
    ∃ h : row.Checks, svc.fits row = true ∧
      db' = { db with tasks := db.tasks.put id ⟨row, h⟩ } := by
  unfold TaskService.store
  split
  next h =>
    rw [ensure_bind_ok]
    constructor
    · rintro ⟨hfits, hdb⟩
      cases hdb
      exact ⟨h, hfits, rfl⟩
    · rintro ⟨_, hfits, rfl⟩
      exact ⟨hfits, rfl⟩
  next h =>
    constructor
    · intro hdb
      cases hdb
    · rintro ⟨hchecks, _⟩
      exact absurd hchecks h

/-- A created task is a draft that has not been published, under a fresh id. -/
theorem createTask_ok {command : CreateTask}
    (h : svc.createTask db actor id command = .ok (row, db')) :
    row.status = .draft ∧ row.publishedAt = none ∧ db.tasks.get id = none ∧
      db'.audit = db.audit ∧
      ∃ hchecks : row.Checks, db'.tasks = db.tasks.put id ⟨row, hchecks⟩ := by
  unfold TaskService.createTask at h
  obtain ⟨_, h⟩ := ensure_bind_ok.mp h
  obtain ⟨title, _, h⟩ := bind_ok.mp h
  obtain ⟨description, _, h⟩ := bind_ok.mp h
  obtain ⟨reward, _, h⟩ := bind_ok.mp h
  obtain ⟨duration, _, h⟩ := bind_ok.mp h
  obtain ⟨cutoff, _, h⟩ := bind_ok.mp h
  obtain ⟨size, _, h⟩ := bind_ok.mp h
  obtain ⟨schema, _, h⟩ := bind_ok.mp h
  obtain ⟨version, _, h⟩ := bind_ok.mp h
  obtain ⟨count, _, h⟩ := bind_ok.mp h
  obtain ⟨taskType, _, h⟩ := bind_ok.mp h
  obtain ⟨rarity, _, h⟩ := bind_ok.mp h
  obtain ⟨mode, _, h⟩ := bind_ok.mp h
  obtain ⟨deadline, _, h⟩ := bind_ok.mp h
  obtain ⟨types, _, h⟩ := bind_ok.mp h
  obtain ⟨channels, _, h⟩ := bind_ok.mp h
  obtain ⟨hfresh, h⟩ := ensure_bind_ok.mp h
  obtain ⟨db₁, hstore, h⟩ := bind_ok.mp h
  obtain ⟨hchecks, _, rfl⟩ := store_ok.mp hstore
  cases h
  exact ⟨rfl, rfl, hfresh, rfl, hchecks, rfl⟩

theorem contractProvided_nil {c : UpdateTask} (h : c.contractProvided = []) :
    c.baseRewardPoints = none ∧ c.deadlineMode = none ∧ c.fixedDeadlineAt = none ∧
      c.durationMinutes = none ∧ c.claimCutoffMinutes = none ∧ c.submissionSchema = none ∧
      c.submissionSchemaVersion = none ∧ c.allowedFileTypes = none ∧
      c.maxFileSizeBytes = none := by
  unfold UpdateTask.contractProvided at h
  simpa using h

/-- An edit leaves the status and the publish time, and the contract unless it gives a field
of it. -/
theorem edited_ok {c : UpdateTask} (h : svc.edited row c = .ok row') :
    row'.status = row.status ∧ row'.publishedAt = row.publishedAt ∧
      (c.contractProvided = [] → row'.contract = row.contract) := by
  unfold TaskService.edited at h
  obtain ⟨title, _, h⟩ := bind_ok.mp h
  obtain ⟨description, _, h⟩ := bind_ok.mp h
  obtain ⟨channels, _, h⟩ := bind_ok.mp h
  obtain ⟨reward, hreward, h⟩ := bind_ok.mp h
  obtain ⟨mode, hmode, h⟩ := bind_ok.mp h
  obtain ⟨deadline, hdeadline, h⟩ := bind_ok.mp h
  obtain ⟨duration, hduration, h⟩ := bind_ok.mp h
  obtain ⟨cutoff, hcutoff, h⟩ := bind_ok.mp h
  obtain ⟨schema, hschema, h⟩ := bind_ok.mp h
  obtain ⟨version, hversion, h⟩ := bind_ok.mp h
  obtain ⟨types, htypes, h⟩ := bind_ok.mp h
  obtain ⟨size, hsize, h⟩ := bind_ok.mp h
  cases h
  refine ⟨rfl, rfl, fun hnil => ?_⟩
  obtain ⟨h₁, h₂, h₃, h₄, h₅, h₆, h₇, h₈, h₉⟩ := contractProvided_nil hnil
  rw [h₁] at hreward
  rw [h₂] at hmode
  rw [h₃] at hdeadline
  rw [h₄] at hduration
  rw [h₅] at hcutoff
  rw [h₆] at hschema
  rw [h₇] at hversion
  rw [h₈] at htypes
  rw [h₉] at hsize
  cases hreward
  cases hmode
  cases hdeadline
  cases hduration
  cases hcutoff
  cases hschema
  cases hversion
  cases htypes
  cases hsize
  rfl

/-- Under the edit rule only a draft gets another contract. -/
theorem editable_ok {c : UpdateTask} {u : Unit} (heditable : requireEditable row c = .ok u)
    (hlive : ¬ (row.status = .closed ∨ row.status = .archived))
    (h : svc.edited row c = .ok row') :
    row'.status = row.status ∧ row'.publishedAt = row.publishedAt ∧
      (row.status ≠ .draft → row'.contract = row.contract) := by
  obtain ⟨hstatus, hpublished, hcontract⟩ := edited_ok h
  refine ⟨hstatus, hpublished, fun hdraft => hcontract ?_⟩
  unfold requireEditable at heditable
  cases hs : row.status with
  | draft => exact absurd hs hdraft
  | closed => exact absurd (Or.inl hs) hlive
  | archived => exact absurd (Or.inr hs) hlive
  | published | paused =>
    rw [hs] at heditable
    exact ensure_ok.mp heditable

/-- An update leaves the table as it is, or replaces one row by one of the same status, whose
contract is the old one unless it is a draft. -/
theorem updateTask_ok {c : UpdateTask} (h : svc.updateTask db actor id c = .ok (row, db')) :
    db' = db ∨ ∃ task, db.tasks.get id = some task ∧ row.status = task.1.status ∧
      (task.1.status ≠ .draft → row.contract = task.1.contract) ∧
      ∃ hchecks : row.Checks, db' = { db with tasks := db.tasks.put id ⟨row, hchecks⟩ } := by
  unfold TaskService.updateTask at h
  obtain ⟨task, htask, h⟩ := bind_ok.mp h
  obtain ⟨_, _, h⟩ := bind_ok.mp h
  obtain ⟨_, heditable, h⟩ := bind_ok.mp h
  split at h
  next =>
    cases h
    exact Or.inl rfl
  next hlive =>
    obtain ⟨row₁, hedited, h⟩ := bind_ok.mp h
    obtain ⟨db₁, hstore, h⟩ := bind_ok.mp h
    obtain ⟨hchecks, _, rfl⟩ := store_ok.mp hstore
    cases h
    obtain ⟨hstatus, _, hcontract⟩ := editable_ok heditable hlive hedited
    exact Or.inr ⟨task, orRefuse_ok.mp htask, hstatus, hcontract, hchecks, rfl⟩

theorem requireEntry_ok {target : TaskStatus} {u : Unit} :
    svc.requireEntry db now id row target = .ok u ↔ (target = .published →
      Publishable svc row now ∧ (row.status = .draft → 0 < db.unitCount id)) := by
  unfold TaskService.requireEntry
  split
  next htarget =>
    rw [bind_ok]
    constructor
    · rintro ⟨_, hgate, hunits⟩ _
      exact ⟨validatePublishable_ok.mp hgate, ensure_ok.mp hunits⟩
    · intro h
      obtain ⟨hgate, hunits⟩ := h htarget
      exact ⟨(), validatePublishable_ok.mpr hgate, ensure_ok.mpr hunits⟩
  next htarget => exact ⟨fun _ h => absurd h htarget, fun _ => rfl⟩

/-- A transition moves one task along an edge of the table; into PUBLISHED it needs the gate,
and from a draft a unit. -/
theorem transition_ok {target : TaskStatus} :
    svc.transition db now actor id target = .ok (row, db') ↔
      ∃ task action, db.tasks.get id = some task ∧ task.1.OwnedBy actor ∧
        target ∈ allowedTaskTransitions task.1.status ∧
        (target = .published → Publishable svc task.1 now ∧
          (task.1.status = .draft → 0 < db.unitCount id)) ∧
        transitionAuditActions task.1.status target = some action ∧
        row = (task.arrived now target).1 ∧
        db' = { db with
          tasks := db.tasks.put id (task.arrived now target)
          audit := db.audit ++ [⟨actor, action, id, task.1.status, target⟩] } := by
  unfold TaskService.transition lockedTask requireOwnerOrAdmin requireTransition
  rw [orRefuse_bind_ok]
  constructor
  · rintro ⟨task, htask, h⟩
    obtain ⟨howner, h⟩ := ensure_bind_ok.mp h
    obtain ⟨hedge, h⟩ := ensure_bind_ok.mp h
    obtain ⟨_, hentry, h⟩ := bind_ok.mp h
    obtain ⟨action, haction, h⟩ := orRefuse_bind_ok.mp h
    cases h
    exact ⟨task, action, htask, howner, hedge, requireEntry_ok.mp hentry, haction, rfl, rfl⟩
  · rintro ⟨task, action, htask, howner, hedge, hentry, haction, rfl, rfl⟩
    refine ⟨task, htask, ensure_bind_ok.mpr ⟨howner, ensure_bind_ok.mpr ⟨hedge, ?_⟩⟩⟩
    refine bind_ok.mpr ⟨(), requireEntry_ok.mpr hentry, ?_⟩
    exact orRefuse_bind_ok.mpr ⟨action, haction, rfl⟩

@[simp] theorem arrived_status (task : StoredTask) (target : TaskStatus) :
    (task.arrived now target).1.status = target := by
  cases target <;> rfl

/-- A transition leaves the schema and the file types, so it leaves whether they fit. -/
@[simp] theorem arrived_completable (task : StoredTask) (target : TaskStatus) :
    (task.arrived now target).1.Completable ↔ task.1.Completable := by
  cases target <;> rfl

end Outcomes

section Runs

variable {svc : TaskService} {db db' : Db} {op : Op}

def Op.target : Op → Option (Actor × TaskId × Instant × TaskStatus)
  | .publish now _ actor id => some (actor, id, now, .published)
  | .resume now actor id => some (actor, id, now, .published)
  | .pause now actor id => some (actor, id, now, .paused)
  | .close now actor id => some (actor, id, now, .closed)
  | .archive now actor id => some (actor, id, now, .archived)
  | .create _ _ _ | .update _ _ _ | .units _ => none

/-- The operation publishes a draft: its caller may do it, the gate and the units allow it. -/
def Db.PublishesDraft (db : Db) (svc : TaskService) (op : Op) (task : StoredTask) : Prop :=
  ∃ actor id now, op.target = some (actor, id, now, .published) ∧
    db.tasks.get id = some task ∧ task.1.status = .draft ∧ task.1.OwnedBy actor ∧
    Publishable svc task.1 now ∧ 0 < db.unitCount id

def Db.LiveCompletable (db : Db) : Prop :=
  ∀ id task, db.tasks.get id = some task →
    task.1.status = .published ∨ task.1.status = .paused → task.1.Completable

/-- An operation that moves a task answers as the transition does. -/
theorem apply_target {actor : Actor} {id : TaskId} {now : Instant} {target : TaskStatus}
    (h : op.target = some (actor, id, now, target)) :
    db.apply svc op = db.commit (svc.transition db now actor id target) := by
  cases op with
  | create | update | units => cases h
  | pause | resume | close | archive =>
    cases h
    rfl
  | publish now after actor id =>
    cases h
    change db.commit (svc.publishTask db now after actor id) = _
    unfold TaskService.publishTask
    cases svc.transition db now actor id .published <;> rfl

/-- A draft that an operation publishes is a published task afterwards, with its schema and
file types. -/
theorem published_of_draft {task : StoredTask} (h : db.PublishesDraft svc op task) :
    ∃ id task', (db.apply svc op).tasks.get id = some task' ∧ task'.1.status = .published ∧
      (task'.1.Completable ↔ task.1.Completable) := by
  obtain ⟨actor, id, now, htarget, htask, hdraft, howner, hgate, hunits⟩ := h
  have hok : svc.transition db now actor id .published = .ok ((task.arrived now .published).1, _) :=
    transition_ok.mpr ⟨task, .published, htask, howner, by simp [hdraft, allowedTaskTransitions],
      fun _ => ⟨hgate, fun _ => hunits⟩, by rw [hdraft]; rfl, rfl, rfl⟩
  refine ⟨id, task.arrived now .published, ?_, arrived_status _ _, arrived_completable _ _⟩
  rw [apply_target htarget, hok]
  exact Table.get_put_self _ _ _

/-- A task that is live after a transition was live before, or was a draft that it publishes. -/
theorem live_of_transition {actor : Actor} {id : TaskId} {now : Instant} {target : TaskStatus}
    (htarget : op.target = some (actor, id, now, target)) (hlive : db.LiveCompletable)
    (hdrafts : ∀ task, db.PublishesDraft svc op task → task.1.Completable) :
    (db.apply svc op).LiveCompletable := by
  rw [apply_target htarget]
  cases hanswer : svc.transition db now actor id target with
  | error e => exact hlive
  | ok result =>
    obtain ⟨row, db'⟩ := result
    obtain ⟨task, action, htask, howner, hedge, hentry, _, rfl, rfl⟩ := transition_ok.mp hanswer
    intro i task' hget hstatus
    rcases Table.get_put_eq_some hget with ⟨rfl, rfl⟩ | ⟨_, hold⟩
    · rw [arrived_completable]
      rw [arrived_status] at hstatus
      by_cases hdraft : task.1.status = .draft
      · have hpublished : target = .published := by
          rw [hdraft] at hedge
          simpa [allowedTaskTransitions] using hedge
        subst hpublished
        obtain ⟨hgate, hunits⟩ := hentry rfl
        exact hdrafts task ⟨actor, i, now, htarget, htask, hdraft, howner, hgate, hunits hdraft⟩
      · apply hlive i task htask
        cases hs : task.1.status <;> rw [hs] at hedge <;> rcases hstatus with rfl | rfl <;>
          simp_all [allowedTaskTransitions]
    · exact hlive i task' hold hstatus

/-- A task that is live after an edit has the schema and the file types of before. -/
theorem live_of_update {actor : Actor} {id : TaskId} {command : UpdateTask}
    (hlive : db.LiveCompletable) : (db.apply svc (.update actor id command)).LiveCompletable := by
  change (db.commit (svc.updateTask db actor id command)).LiveCompletable
  cases hanswer : svc.updateTask db actor id command with
  | error e => exact hlive
  | ok result =>
    obtain ⟨row, db'⟩ := result
    rcases updateTask_ok hanswer with rfl | ⟨task, htask, hstatus, hcontract, hchecks, rfl⟩
    · exact hlive
    · intro i task' hget hlive'
      rcases Table.get_put_eq_some hget with ⟨rfl, rfl⟩ | ⟨_, hold⟩
      · rw [hstatus] at hlive'
        have hdraft : task.1.status ≠ .draft := by
          intro hdraft
          rw [hdraft] at hlive'
          simp at hlive'
        have hsame := hcontract hdraft
        have hschema := congrArg Contract.submissionSchema hsame
        have htypes := congrArg Contract.allowedFileTypes hsame
        have hcompletable := hlive i task htask hlive'
        unfold TaskRow.Completable at hcompletable ⊢
        dsimp only [TaskRow.contract] at hschema htypes
        rw [hschema, htypes]
        exact hcompletable
      · exact hlive i task' hold hlive'

theorem live_of_create {actor : Actor} {id : TaskId} {command : CreateTask}
    (hlive : db.LiveCompletable) : (db.apply svc (.create actor id command)).LiveCompletable := by
  change (db.commit (svc.createTask db actor id command)).LiveCompletable
  cases hanswer : svc.createTask db actor id command with
  | error e => exact hlive
  | ok result =>
    obtain ⟨row, db'⟩ := result
    obtain ⟨hdraft, _, _, _, hchecks, htasks⟩ := createTask_ok hanswer
    intro i task' hget hlive'
    change db'.tasks.get i = some task' at hget
    rw [htasks] at hget
    rcases Table.get_put_eq_some hget with ⟨rfl, rfl⟩ | ⟨_, hold⟩
    · rw [hdraft] at hlive'
      simp at hlive'
    · exact hlive i task' hold hlive'

/-- One call keeps the live tasks completable if the drafts that it publishes are. -/
theorem live_step (hlive : db.LiveCompletable)
    (hdrafts : ∀ task, db.PublishesDraft svc op task → task.1.Completable) :
    (db.apply svc op).LiveCompletable := by
  cases op with
  | create actor id command => exact live_of_create hlive
  | update actor id command => exact live_of_update hlive
  | publish | pause | resume | close | archive => exact live_of_transition rfl hlive hdrafts
  | units => exact hlive

/-- Every published task of a run is completable exactly while each draft that is published has
a schema that parses and admits one of its file types. -/
theorem published_completable {s s' : Db} {l : List (Db × Op × Db)} (hs : (taskSystem svc).init s)
    (hrun : (taskSystem svc).Run s l s') :
    (∀ e ∈ l, e.2.2.AllCompletable) ↔
      ∀ e ∈ l, ∀ task, e.1.PublishesDraft svc e.2.1 task → task.1.Completable := by
  have hempty : s.tasks = .empty := hs
  have hlive : s.LiveCompletable := by
    intro id task hget
    rw [hempty, Table.get_empty] at hget
    cases hget
  constructor
  · rintro hall ⟨db, op, db'⟩ he task hdraft
    obtain ⟨hstep, _⟩ := hrun.step_mem he
    obtain ⟨id, task', hget, hstatus, hiff⟩ := published_of_draft hdraft
    rw [← show db' = db.apply svc op from hstep] at hget
    exact hiff.mp (hall (db, op, db') he id task' hget hstatus)
  · intro hdrafts e he id task hget hstatus
    have hall : ∀ e ∈ l, e.2.2.LiveCompletable := by
      refine (hrun.keeps_iff (P := Db.LiveCompletable)
        (G := fun db op => ∀ task, db.PublishesDraft svc op task → task.1.Completable)
        (fun db op db' _ hlive hstep => ?_) (.init hs) hlive).mpr hdrafts
      rw [show db' = db.apply svc op from hstep]
      refine ⟨fun h task hdraft => ?_, live_step hlive⟩
      obtain ⟨id, task', hget, hstatus, hiff⟩ := published_of_draft hdraft
      exact hiff.mp (h id task' hget (Or.inl hstatus))
    exact hall e he id task hget (Or.inl hstatus)

/-- A service over ASCII codes and a teacher's task for an hour of work with one unit. -/
def plainTasks : TaskService := ⟨1000, List.map Char.toUpper, fun _ => true⟩

def hourTask (schema : List (Text × Json)) : CreateTask where
  title := "t".toList
  description := "d".toList
  baseRewardPoints := 10
  deadlineMode := "RELATIVE".toList
  allowedFileTypes := ["csv".toList]
  maxFileSizeBytes := 100
  taskType := "DATA_CRAWL".toList
  rarity := "NORMAL".toList
  fixedDeadlineAt := none
  durationMinutes := some 60
  claimCutoffMinutes := 240
  submissionSchema := some schema
  submissionSchemaVersion := some 1
  targetCount := some 1
  notify24h := true
  notify4h := true
  notificationChannels := ["SMS".toList]

def publishing (schema : List (Text × Json)) : List Op :=
  [.create ⟨9, .teacher⟩ 1 (hourTask schema), .publish 0 0 ⟨9, .teacher⟩ 1,
    .pause 0 ⟨9, .teacher⟩ 1, .resume 0 ⟨9, .teacher⟩ 1]

def noTasks : Db := ⟨.empty, [], []⟩

def Db.after (db : Db) (svc : TaskService) (ops : List Op) : Db := ops.foldl (Db.apply svc) db

theorem published_completable_rows :
    let ops := publishing [("min_rows".toList, .int 1)]
    ((noTasks.after plainTasks ops).tasks.get 1).any (fun task =>
      task.1.status = .published && task.1.hasSchema) = true ∧
    ((∀ e ∈ traceOf (Db.apply plainTasks) noTasks ops, e.2.2.AllCompletable) ↔
      ∀ e ∈ traceOf (Db.apply plainTasks) noTasks ops,
        ∀ task, e.1.PublishesDraft plainTasks e.2.1 task → task.1.Completable) :=
  ⟨by decide +kernel, published_completable (show (taskSystem plainTasks).init noTasks from rfl)
    (run_traceOf _ _ _ _)⟩

/-- A misspelt key is published, and the task that carries it cannot be completed. -/
theorem published_typo : ¬ ∀ svc db, (taskSystem svc).Reach db → db.AllCompletable := by
  intro h
  have hrun := run_traceOf (fun db : Db => db.tasks = .empty) (Db.apply plainTasks) noTasks
    (publishing [("min_row".toList, .int 1)])
  have hinit : (taskSystem plainTasks).init noTasks := rfl
  have hall := h plainTasks _ (hrun.reach (.init hinit))
  have hstuck : ((noTasks.after plainTasks (publishing [("min_row".toList, .int 1)])).tasks.get
      1).any (fun task => task.1.status = .published && task.1.submissionSchema.any fun raw =>
        (refusal (SubmissionSchema.parse (.obj raw))).isSome) = true := by
    decide +kernel
  obtain ⟨task, hget, hstuck⟩ := Option.any_eq_true _ _ |>.mp hstuck
  rw [Bool.and_eq_true, decide_eq_true_eq] at hstuck
  obtain ⟨hpublished, hstuck⟩ := hstuck
  obtain ⟨raw, hraw, hrefused⟩ := Option.any_eq_true _ _ |>.mp hstuck
  obtain ⟨schema, hparsed, _⟩ := hall 1 task hget hpublished raw hraw
  rw [hparsed] at hrefused
  cases hrefused

end Runs

end CampusQuest.Tasks
