import CampusQuest.ClaimWindow
import CampusQuest.CompletableTasks
import CampusQuest.TwoProcesses

/-!
The life of a task under concurrent requests. An edit and a transition lock the row of the task
and decide on what they have read of it; a claim shares the row with other claims and keeps the
writers out until it commits. What a claim asks of its account and of the units is left out: it
only makes claims fail.
-/

namespace CampusQuest.Tasks

open Guards Locking Runs Tables
open ClaimWindow (Raised requireClaimableTask computeClaimDeadlines)
open Lifecycle (ClaimDeadlines LifecycleError TaskStatus)

abbrev ClaimId := ℕ

structure TaskClaim where
  taskId : TaskId
  userId : UserId
  claimedAt : Instant
  deadlineAt : Instant
  graceDeadlineAt : Instant
  baseRewardPointsSnapshot : ℤ
  submissionSchemaVersion : Option ℤ

def newTaskClaim (user : UserId) (id : TaskId) (row : TaskRow) (claimedAt : Instant)
    (deadlines : ClaimDeadlines) : TaskClaim where
  taskId := id
  userId := user
  claimedAt := claimedAt
  deadlineAt := deadlines.deadlineAt
  graceDeadlineAt := deadlines.graceDeadlineAt
  baseRewardPointsSnapshot := row.baseRewardPoints
  submissionSchemaVersion := row.submissionSchemaVersion

structure TaskStore where
  db : Db
  claims : Table ClaimId TaskClaim

inductive TaskRequest
  | idle
  | locked (id : TaskId) (task : StoredTask)
  | edited (id : TaskId) (task row : StoredTask)
  | moving (id : TaskId) (task : StoredTask) (now : Instant) (audit : AuditRow)
  | sharing (user : UserId) (id : TaskId) (share : ℕ) (task : StoredTask)
  | claiming (id : TaskId) (share : ℕ) (task : StoredTask) (claim : TaskClaim)

open TaskRequest

/-- A row has any number of shares. A reader holds one of them, a writer all. -/
def TaskRequest.locks : TaskRequest → TaskId × ℕ → Prop
  | locked id _, k | edited id _ _, k | moving id _ _ _, k => k.1 = id
  | sharing _ id share _, k | claiming id share _ _, k => k = (id, share)
  | _, _ => False

inductive TaskEvent
  | abandoned
  | refused (e : TaskError)
  | unclaimed (e : Raised LifecycleError)
  | created (id : TaskId)
  | unchanged (id : TaskId)
  | updated (id : TaskId)
  | moved (audit : AuditRow)
  | claimed (id : ClaimId)
  | units

inductive TaskRead (svc : TaskService) : TaskRequest → TaskStore → TaskRequest → Prop
  | lock {s : TaskStore} (id : TaskId) (task : StoredTask) (hget : s.db.tasks.get id = some task) :
      TaskRead svc idle s (locked id task)
  | edit {s : TaskStore} (id : TaskId) (task : StoredTask) (actor : Actor) (command : UpdateTask)
      (row : TaskRow) (hchecks : row.Checks)
      (howner : requireOwnerOrAdmin task.1 actor = .ok ())
      (heditable : requireEditable task.1 command = .ok ())
      (hlive : ¬ (task.1.status = .closed ∨ task.1.status = .archived))
      (hedited : svc.edited task.1 command = .ok row) (hfits : svc.fits row = true) :
      TaskRead svc (locked id task) s (edited id task ⟨row, hchecks⟩)
  | enter {s : TaskStore} (id : TaskId) (task : StoredTask) (now : Instant) (actor : Actor)
      (target : TaskStatus) (action : TaskAudit)
      (howner : requireOwnerOrAdmin task.1 actor = .ok ())
      (hedge : requireTransition task.1 target = .ok ())
      (hentry : svc.requireEntry s.db now id task.1 target = .ok ())
      (haction : transitionAuditActions task.1.status target = some action) :
      TaskRead svc (locked id task) s
        (moving id task now ⟨actor, action, id, task.1.status, target⟩)
  | share {s : TaskStore} (user : UserId) (id : TaskId) (share : ℕ) (task : StoredTask)
      (hget : s.db.tasks.get id = some task) :
      TaskRead svc idle s (sharing user id share task)
  | claimable {s : TaskStore} (user : UserId) (id : TaskId) (share : ℕ) (task : StoredTask)
      (now : Instant) (deadlines : ClaimDeadlines)
      (hclaimable : requireClaimableTask task.1 now = .ok ())
      (hdeadlines : computeClaimDeadlines id task.1 now = .ok deadlines) :
      TaskRead svc (sharing user id share task) s
        (claiming id share task (newTaskClaim user id task.1 now deadlines))

inductive TaskCommit (svc : TaskService) :
    TaskRequest → TaskStore → TaskEvent → TaskRequest → TaskStore → Prop
  | abandoned {s : TaskStore} (m : TaskRequest) : TaskCommit svc m s .abandoned idle s
  | unknown {s : TaskStore} (id : TaskId) (hnone : s.db.tasks.get id = none) :
      TaskCommit svc idle s (.refused (.taskNotFound id)) idle s
  | uncreated {s : TaskStore} (actor : Actor) (id : TaskId) (command : CreateTask) (e : TaskError)
      (herror : svc.createTask s.db actor id command = .error e) :
      TaskCommit svc idle s (.refused e) idle s
  | created {s : TaskStore} (actor : Actor) (id : TaskId) (command : CreateTask) (row : TaskRow)
      (db : Db) (hcreated : svc.createTask s.db actor id command = .ok (row, db)) :
      TaskCommit svc idle s (.created id) idle { s with db := db }
  | unedited {s : TaskStore} (id : TaskId) (task : StoredTask) (actor : Actor)
      (command : UpdateTask) (e : TaskError)
      (herror : svc.updateTask s.db actor id command = .error e) :
      TaskCommit svc (locked id task) s (.refused e) idle s
  | unchanged {s : TaskStore} (id : TaskId) (task : StoredTask) (actor : Actor)
      (command : UpdateTask) (howner : requireOwnerOrAdmin task.1 actor = .ok ())
      (heditable : requireEditable task.1 command = .ok ())
      (hfrozen : task.1.status = .closed ∨ task.1.status = .archived) :
      TaskCommit svc (locked id task) s (.unchanged id) idle s
  | updated {s : TaskStore} (id : TaskId) (task row : StoredTask) :
      TaskCommit svc (edited id task row) s (.updated id) idle
        { s with db := { s.db with tasks := s.db.tasks.put id row } }
  | unmoved {s : TaskStore} (id : TaskId) (task : StoredTask) (now : Instant) (actor : Actor)
      (target : TaskStatus) (e : TaskError)
      (herror : svc.transition s.db now actor id target = .error e) :
      TaskCommit svc (locked id task) s (.refused e) idle s
  | moved {s : TaskStore} (id : TaskId) (task : StoredTask) (now : Instant) (audit : AuditRow) :
      TaskCommit svc (moving id task now audit) s (.moved audit) idle
        { s with
          db := { s.db with
            tasks := s.db.tasks.put id (task.arrived now audit.after)
            audit := s.db.audit ++ [audit] } }
  | unclaimable {s : TaskStore} (user : UserId) (id : TaskId) (share : ℕ) (task : StoredTask)
      (now : Instant) (e : Raised LifecycleError)
      (herror : requireClaimableTask task.1 now = .error e ∨
        computeClaimDeadlines id task.1 now = .error e) :
      TaskCommit svc (sharing user id share task) s (.unclaimed e) idle s
  | claimed {s : TaskStore} (id : TaskId) (share : ℕ) (task : StoredTask) (claim : TaskClaim)
      (k : ClaimId) (hfresh : s.claims.get k = none) :
      TaskCommit svc (claiming id share task claim) s (.claimed k) idle
        { s with claims := s.claims.put k claim }
  | units {s : TaskStore} (rows : List TaskUnit) :
      TaskCommit svc idle s .units idle { s with db := { s.db with units := rows } }

def TaskStore.Consistent (s : TaskStore) : Prop :=
  ∀ id task, s.db.tasks.get id = some task →
    (task.1.publishedAt = none ↔ task.1.status = .draft)

structure AuditsMove (audit : AuditRow) (id : TaskId) (row : TaskRow) : Prop where
  targetId : audit.targetId = id
  before : audit.before = row.status
  edge : audit.after ∈ allowedTaskTransitions row.status
  action : transitionAuditActions row.status audit.after = some audit.action

/-- An edit of a row: its status and publish time stay, and its contract unless it is a draft. -/
structure Edits (row row' : TaskRow) : Prop where
  status : row'.status = row.status
  publishedAt : row'.publishedAt = row.publishedAt
  contract : row.status ≠ .draft → row'.contract = row.contract

/-- What a request knows: its row is current, and what it is about to write comes from it. -/
def TaskStore.Knows (s : TaskStore) : TaskRequest → Prop
  | idle => True
  | locked id task | sharing _ id _ task => s.db.tasks.get id = some task
  | edited id task row => s.db.tasks.get id = some task ∧ Edits task.1 row.1
  | moving id task _ audit => s.db.tasks.get id = some task ∧ AuditsMove audit id task.1
  | claiming id _ task claim => s.db.tasks.get id = some task ∧ claim.taskId = id ∧
    task.1.status = .published

def taskProtocol (svc : TaskService) : Protocol TaskStore (TaskId × ℕ) TaskRequest TaskEvent where
  locks := TaskRequest.locks
  known m s := s.Knows m
  start m := m = idle
  read := TaskRead svc
  commit := TaskCommit svc

def lifecycleSystem (svc : TaskService) (ι : Type*) [DecidableEq ι] :
    System (Config ι TaskStore TaskRequest) (Move ι TaskEvent) :=
  (taskProtocol svc).system ι TaskStore.Consistent

section Moves

variable {svc : TaskService} {s s' : TaskStore} {m m' o : TaskRequest} {ev : TaskEvent}
  {id : TaskId} {task : StoredTask}

def Edge (before after : TaskStatus) : Prop := after ∈ allowedTaskTransitions before

theorem not_edge_draft {before : TaskStatus} : ¬ Edge before .draft := by
  cases before <;> simp [Edge, allowedTaskTransitions]

/-- What becomes of a task: it moves along the table, keeps its publish time, and its contract
from the first publish on. -/
structure Descends (row row' : TaskRow) : Prop where
  status : Relation.ReflTransGen Edge row.status row'.status
  publishedAt : ∀ t, row.publishedAt = some t → row'.publishedAt = some t
  contract : row.status ≠ .draft → row'.contract = row.contract

theorem Descends.refl (row : TaskRow) : Descends row row := ⟨.refl, fun _ h => h, fun _ => rfl⟩

theorem not_draft_later {before after : TaskStatus} (h : Relation.ReflTransGen Edge before after)
    (hbefore : before ≠ .draft) : after ≠ .draft := by
  induction h with
  | refl => exact hbefore
  | tail _ hedge _ =>
    rintro rfl
    exact not_edge_draft hedge

theorem Descends.trans {row row' row'' : TaskRow} (h : Descends row row')
    (h' : Descends row' row'') : Descends row row'' where
  status := h.status.trans h'.status
  publishedAt t ht := h'.publishedAt t (h.publishedAt t ht)
  contract hdraft := (h'.contract (not_draft_later h.status hdraft)).trans (h.contract hdraft)

theorem Edits.descends {row row' : TaskRow} (h : Edits row row') : Descends row row' where
  status := h.status ▸ .refl
  publishedAt _ ht := h.publishedAt.trans ht
  contract := h.contract

theorem arrived_descends {now : Instant} {target : TaskStatus}
    (hedge : Edge task.1.status target) : Descends task.1 (task.arrived now target).1 where
  status := .single (by rw [arrived_status]; exact hedge)
  publishedAt t ht := by
    cases target with
    | published =>
      change task.1.publishedAt.or (some now) = some t
      rw [ht]
      rfl
    | _ => exact ht
  contract _ := by cases target <;> rfl

/-- Where a task has arrived it has a publish time, unless it is still a draft. -/
theorem arrived_published {now : Instant} {target : TaskStatus}
    (hedge : Edge task.1.status target)
    (h : task.1.publishedAt = none ↔ task.1.status = .draft) :
    (task.arrived now target).1.publishedAt = none ↔
      (task.arrived now target).1.status = .draft := by
  rw [arrived_status]
  have htarget : target ≠ .draft := by
    rintro rfl
    exact not_edge_draft hedge
  refine iff_of_false ?_ htarget
  cases target with
  | published =>
    change task.1.publishedAt.or (some now) ≠ none
    cases task.1.publishedAt <;> simp
  | draft => exact absurd rfl htarget
  | paused | closed | archived =>
    refine fun hnone => ?_
    have hdraft : task.1.status = .draft := h.mp hnone
    rw [hdraft] at hedge
    simp [Edge, allowedTaskTransitions] at hedge

/-- A row that is replaced, and the others. -/
theorem put_descends {row : StoredTask} {k : TaskId} {t : Table TaskId StoredTask}
    (hk : t.get k = some task) (h : Descends task.1 row.1) {task₁ : StoredTask}
    (hget : t.get id = some task₁) :
    ∃ task', (t.put k row).get id = some task' ∧ Descends task₁.1 task'.1 := by
  by_cases hid : id = k
  · subst hid
    obtain rfl : task₁ = task := Option.some.inj (hget.symm.trans hk)
    exact ⟨row, Table.get_put_self _ _ _, h⟩
  · exact ⟨task₁, (Table.get_put_of_ne _ _ hid).trans hget, .refl _⟩

theorem TaskCommit.descends (h : TaskCommit svc m s ev m' s') (hknown : s.Knows m)
    (hget : s.db.tasks.get id = some task) :
    ∃ task', s'.db.tasks.get id = some task' ∧ Descends task.1 task'.1 := by
  cases h with
  | created actor k command row db hcreated =>
    obtain ⟨_, _, hfresh, _, hchecks, htasks⟩ := createTask_ok hcreated
    have hkept := Table.get_put_of_fresh (r := ⟨row, hchecks⟩) hfresh hget
    rw [← htasks] at hkept
    exact ⟨task, hkept, .refl _⟩
  | updated k task₀ row =>
    obtain ⟨hk, hedits⟩ := hknown
    exact put_descends hk hedits.descends hget
  | moved k task₀ now audit =>
    obtain ⟨hk, haudit⟩ := hknown
    exact put_descends hk (arrived_descends haudit.edge) hget
  | _ => exact ⟨task, hget, .refl _⟩

theorem TaskCommit.born (h : TaskCommit svc m s ev m' s') (hknown : s.Knows m)
    (hnone : s.db.tasks.get id = none) (hget : s'.db.tasks.get id = some task) :
    task.1.status = .draft ∧ task.1.publishedAt = none := by
  cases h with
  | created actor k command row db hcreated =>
    obtain ⟨hdraft, hunpublished, _, _, hchecks, htasks⟩ := createTask_ok hcreated
    change db.tasks.get id = some task at hget
    rw [htasks] at hget
    rcases Table.get_put_eq_some hget with ⟨rfl, rfl⟩ | ⟨_, hold⟩
    · exact ⟨hdraft, hunpublished⟩
    · rw [hnone] at hold
      cases hold
  | updated k task₀ row => exact absurd hnone (Table.get_ne_none_of_put hknown.1 hget)
  | moved k task₀ now audit => exact absurd hnone (Table.get_ne_none_of_put hknown.1 hget)
  | _ =>
    rw [show s.db.tasks.get id = none from hnone] at hget
    cases hget

theorem TaskCommit.consistent (h : TaskCommit svc m s ev m' s') (hs : s.Consistent)
    (hknown : s.Knows m) : s'.Consistent := by
  intro id task hget
  cases hold : s.db.tasks.get id with
  | none =>
    obtain ⟨hdraft, hunpublished⟩ := h.born hknown hold hget
    exact iff_of_true hunpublished hdraft
  | some before =>
    cases h with
    | created actor k command row db hcreated =>
      obtain ⟨_, _, hfresh, _, hchecks, htasks⟩ := createTask_ok hcreated
      have hkept := Table.get_put_of_fresh (r := ⟨row, hchecks⟩) hfresh hold
      rw [← htasks] at hkept
      obtain rfl : before = task := Option.some.inj (hkept.symm.trans hget)
      exact hs id before hold
    | updated k task₀ row =>
      obtain ⟨hk, hedits⟩ := hknown
      rcases Table.get_put_eq_some hget with ⟨rfl, rfl⟩ | ⟨_, hother⟩
      · rw [hedits.publishedAt, hedits.status]
        exact hs id task₀ hk
      · exact hs id task hother
    | moved k task₀ now audit =>
      obtain ⟨hk, haudit⟩ := hknown
      rcases Table.get_put_eq_some hget with ⟨rfl, rfl⟩ | ⟨_, hother⟩
      · exact arrived_published haudit.edge (hs id task₀ hk)
      · exact hs id task hother
    | _ => exact hs id task hget

/-- A row that is not locked by a writer stays. -/
theorem TaskCommit.get_unlocked (h : TaskCommit svc m s ev m' s') {share : ℕ}
    (hget : s.db.tasks.get id = some task) (hfree : ¬ m.locks (id, share)) :
    s'.db.tasks.get id = some task := by
  cases h with
  | created actor k command row db hcreated =>
    obtain ⟨_, _, hfresh, _, hchecks, htasks⟩ := createTask_ok hcreated
    have hkept := Table.get_put_of_fresh (r := ⟨row, hchecks⟩) hfresh hget
    rw [← htasks] at hkept
    exact hkept
  | updated k task₀ row => exact (Table.get_put_of_ne _ _ hfree).trans hget
  | moved k task₀ now audit => exact (Table.get_put_of_ne _ _ hfree).trans hget
  | _ => exact hget

theorem TaskCommit.knows (h : TaskCommit svc m s ev m' s') (hother : s.Knows o)
    (hdisjoint : ∀ k, m.locks k → ¬ o.locks k) : s'.Knows o := by
  have hrow {id : TaskId} (share : ℕ) {task : StoredTask} (hlocks : o.locks (id, share))
      (hget : s.db.tasks.get id = some task) : s'.db.tasks.get id = some task :=
    h.get_unlocked hget fun hm => hdisjoint _ hm hlocks
  cases o with
  | idle => trivial
  | locked id task => exact hrow 0 rfl hother
  | edited id task row => exact ⟨hrow 0 rfl hother.1, hother.2⟩
  | moving id task now audit => exact ⟨hrow 0 rfl hother.1, hother.2⟩
  | sharing user id share task => exact hrow share rfl hother
  | claiming id share task claim => exact ⟨hrow share rfl hother.1, hother.2⟩

theorem read_keeps (hknown : s.Knows m) (hread : TaskRead svc m s m') : s.Knows m' := by
  cases hread with
  | lock id task hget => exact hget
  | edit id task actor command row hchecks howner heditable hlive hedited hfits =>
    obtain ⟨hstatus, hpublished, hcontract⟩ := editable_ok heditable hlive hedited
    exact ⟨hknown, hstatus, hpublished, hcontract⟩
  | enter id task now actor target action howner hedge hentry haction =>
    exact ⟨hknown, rfl, rfl, ensure_ok.mp hedge, haction⟩
  | share user id share task hget => exact hget
  | claimable user id share task now deadlines hclaimable hdeadlines =>
    exact ⟨hknown, rfl, (ClaimWindow.requireClaimableTask_ok.mp hclaimable).1⟩

/-- What a commit records: the tasks that it makes are drafts, and it writes an audit row
exactly when it moves a task, one for its move. -/
structure Recorded (s s' : TaskStore) : Prop where
  drafts : ∀ id task, s.db.tasks.get id = none → s'.db.tasks.get id = some task →
    task.1.status = .draft
  audit : (s'.db.audit = s.db.audit ∧ ∀ id task task', s.db.tasks.get id = some task →
      s'.db.tasks.get id = some task' → task'.1.status = task.1.status) ∨
    ∃ audit task task', s'.db.audit = s.db.audit ++ [audit] ∧
      s.db.tasks.get audit.targetId = some task ∧ AuditsMove audit audit.targetId task.1 ∧
      s'.db.tasks.get audit.targetId = some task' ∧ task'.1.status = audit.after ∧
      ∀ id, id ≠ audit.targetId → s'.db.tasks.get id = s.db.tasks.get id

theorem Recorded.refl (s : TaskStore) : Recorded s s where
  drafts id task hnone hget := by
    rw [hnone] at hget
    cases hget
  audit := Or.inl ⟨rfl, fun id task task' hget hget' =>
    (by rw [Option.some.inj (hget.symm.trans hget')])⟩

theorem TaskCommit.recorded (h : TaskCommit svc m s ev m' s') (hknown : s.Knows m) :
    Recorded s s' where
  drafts id task hnone hget := (h.born hknown hnone hget).1
  audit := by
    cases h with
    | created actor k command row db hcreated =>
      obtain ⟨_, _, hfresh, haudit, hchecks, htasks⟩ := createTask_ok hcreated
      refine Or.inl ⟨haudit, fun id task task' hget hget' => ?_⟩
      have hkept := Table.get_put_of_fresh (r := ⟨row, hchecks⟩) hfresh hget
      rw [← htasks] at hkept
      rw [Option.some.inj (hkept.symm.trans hget')]
    | updated k task₀ row =>
      obtain ⟨hk, hedits⟩ := hknown
      refine Or.inl ⟨rfl, fun id task task' hget hget' => ?_⟩
      rcases Table.get_put_eq_some hget' with ⟨rfl, rfl⟩ | ⟨_, hother⟩
      · obtain rfl : task₀ = task := Option.some.inj (hk.symm.trans hget)
        exact hedits.status
      · rw [Option.some.inj (hget.symm.trans hother)]
    | moved k task₀ now audit =>
      obtain ⟨hk, haudit⟩ := hknown
      obtain rfl := haudit.targetId
      refine Or.inr ⟨audit, task₀, task₀.arrived now audit.after, rfl, hk, haudit,
        Table.get_put_self _ _ _, arrived_status _ _, fun id hne => Table.get_put_of_ne _ _ hne⟩
    | _ =>
      refine Or.inl ⟨rfl, fun id task task' hget hget' => ?_⟩
      rw [Option.some.inj (hget.symm.trans hget')]

theorem TaskCommit.claim (h : TaskCommit svc m s ev m' s') (hknown : s.Knows m) {k : ClaimId}
    {claim : TaskClaim} (hget : s'.claims.get k = some claim) :
    s.claims.get k = some claim ∨
      ∃ task, s.db.tasks.get claim.taskId = some task ∧ task.1.status = .published := by
  cases h with
  | claimed id share task claim' k' hfresh =>
    obtain ⟨htask, hid, hpublished⟩ := hknown
    rcases Table.get_put_eq_some hget with ⟨rfl, rfl⟩ | ⟨_, hold⟩
    · exact Or.inr ⟨task, hid ▸ htask, hpublished⟩
    · exact Or.inl hold
  | _ => exact Or.inl hget

end Moves

theorem taskProtocol_sound (svc : TaskService) :
    (taskProtocol svc).Sound TaskStore.Consistent where
  start_locks m k hm := by
    subst hm
    exact id
  start_known m s hm := by
    subst hm
    trivial
  read_known m s m' hknown hread := read_keeps hknown hread
  commit_inv m s ev m' s' hs hknown hcommit := hcommit.consistent hs hknown
  commit_known m s ev m' s' _ _ hcommit := by
    cases hcommit <;> trivial
  commit_stable m s ev m' s' o _ _ hcommit hother hdisjoint := hcommit.knows hother hdisjoint

section Runs

variable {svc : TaskService} {ι : Type*} [DecidableEq ι] {c c' : Config ι TaskStore TaskRequest}

/-- A step leaves the store alone, or it is a commit of a request that knows its rows. -/
theorem task_step (hc : (lifecycleSystem svc ι).Reach c) {a : Move ι TaskEvent}
    (hstep : (lifecycleSystem svc ι).step c a c') :
    c'.store = c.store ∨ ∃ ev m', c.store.Knows (c.proc a.1) ∧
      TaskCommit svc (c.proc a.1) c.store ev m' c'.store := by
  obtain ⟨_, ⟨_, hsame⟩ | ⟨ev, m', _, hknown, hcommit⟩⟩ :=
    (taskProtocol_sound svc).step_store (fun _ h => h) hc hstep
  · exact Or.inl hsame
  · exact Or.inr ⟨ev, m', hknown, hcommit⟩

end Runs

/-- In every run of the requests on tasks: a task moves along the table of transitions, keeps the
publish time that its first publish has set, and has one contract from then on; a transition has
its audit row, and nothing else has one; and a claim is made of a published task. -/
theorem task_lifecycle_kept (svc : TaskService) {ι : Type*} [DecidableEq ι]
    {c c' : Config ι TaskStore TaskRequest}
    {l : List (Config ι TaskStore TaskRequest × Move ι TaskEvent ×
      Config ι TaskStore TaskRequest)}
    (hc : (lifecycleSystem svc ι).Reach c) (hrun : (lifecycleSystem svc ι).Run c l c') :
    c.store.Consistent ∧
    (∀ id task, c.store.db.tasks.get id = some task →
      ∃ task', c'.store.db.tasks.get id = some task' ∧ Descends task.1 task'.1) ∧
    (∀ e ∈ l, Recorded e.1.store e.2.2.store) ∧
    (∀ e ∈ l, ∀ k claim, e.2.2.store.claims.get k = some claim →
      e.1.store.claims.get k = some claim ∨ ∃ task,
        e.1.store.db.tasks.get claim.taskId = some task ∧ task.1.status = .published) := by
  refine ⟨((taskProtocol_sound svc).current (fun _ h => h) hc).inv, fun id task hget => ?_, ?_, ?_⟩
  · refine hrun.keeps (P := fun c => ∃ task', c.store.db.tasks.get id = some task' ∧
      Descends task.1 task'.1) (fun c₁ a c₂ hc₁ ⟨task₁, hget₁, hdescends⟩ hstep => ?_) hc
      ⟨task, hget, .refl _⟩
    rcases task_step hc₁ hstep with hsame | ⟨ev, m', hknown, hcommit⟩
    · exact ⟨task₁, hsame ▸ hget₁, hdescends⟩
    · obtain ⟨task₂, hget₂, hnext⟩ := hcommit.descends hknown hget₁
      exact ⟨task₂, hget₂, hdescends.trans hnext⟩
  · rintro ⟨c₁, a, c₂⟩ he
    obtain ⟨hstep, l', hbefore⟩ := hrun.step_mem he
    rcases task_step (hbefore.reach hc) hstep with hsame | ⟨ev, m', hknown, hcommit⟩
    · dsimp only at hsame ⊢
      rw [hsame]
      exact .refl _
    · exact hcommit.recorded hknown
  · rintro ⟨c₁, a, c₂⟩ he k claim hget
    obtain ⟨hstep, l', hbefore⟩ := hrun.step_mem he
    rcases task_step (hbefore.reach hc) hstep with hsame | ⟨ev, m', hknown, hcommit⟩
    · exact Or.inl (hsame ▸ hget)
    · exact hcommit.claim hknown hget

section Example

open ClaimWindow (fixedTask)

def openTask : TaskStore := ⟨⟨Table.empty.put 1 (fixedTask (hours 168)), [], []⟩, .empty⟩

def pauseAudit : AuditRow := ⟨⟨9, .teacher⟩, .paused, 1, .published, .paused⟩

def pausedTask : TaskStore where
  db :=
    { openTask.db with
      tasks := openTask.db.tasks.put 1 ((fixedTask (hours 168)).arrived 0 .paused)
      audit := [pauseAudit] }
  claims := .empty

/-- The owner pauses the task, which keeps its publish time and its contract. -/
theorem open_task_paused : ∃ task', pausedTask.db.tasks.get 1 = some task' ∧
    Descends (fixedTask (hours 168)).1 task'.1 := by
  have hfree (k : TaskId × ℕ) : ¬ TaskRequest.locks idle k := id
  have hconsistent : openTask.Consistent := by
    intro id task hget
    rcases Table.get_put_eq_some hget with ⟨_, rfl⟩ | ⟨_, hold⟩
    · exact iff_of_false (Option.some_ne_none _) (by decide)
    · cases hold
  have hstart := Protocol.reaches_start (P := taskProtocol ClaimWindow.hundredBytes)
    (G := fun _ _ => True) hconsistent (m := idle) (n := idle) rfl rfl
  have hlocked := hstart.read_left (.lock 1 (fixedTask (hours 168)) (by rfl))
    (fun k _ => hfree k) trivial
  have hmoving := hlocked.read_left
    (.enter 1 (fixedTask (hours 168)) 0 ⟨9, .teacher⟩ .paused .paused rfl rfl rfl rfl)
    (fun k _ => hfree k) trivial
  have hstep := Protocol.Step.commit (P := taskProtocol ClaimWindow.hundredBytes)
    ⟨openTask, pair (moving 1 (fixedTask (hours 168)) 0 pauseAudit) idle⟩ false _ _ _
    (.moved 1 (fixedTask (hours 168)) 0 pauseAudit) (Protocol.free_left fun k _ => hfree k)
  exact (task_lifecycle_kept ClaimWindow.hundredBytes (System.Reach.of_guarded hmoving)
    (.snoc (.nil _) hstep)).2.1 1 (fixedTask (hours 168)) (by rfl)

end Example

end CampusQuest.Tasks
