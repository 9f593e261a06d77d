import CampusQuest.Histories
import CampusQuest.Locking
import CampusQuest.TaskService
import Mathlib.Data.List.Sort

/-!
The collaborators of tasks. A call locks the row of its task, then reads, checks and writes one
statement after the other, and other calls come in between. What a collaborator holds goes back to
the owner or an administrator, grant by grant.
-/

namespace CampusQuest.Collaborators

open Guards Histories Locking Runs
open Lifecycle (CollaboratorPermission)
open Tasks (normalizedCodes sorted)

/-! ### The service -/

def permissionValue : CollaboratorPermission → Text
  | .viewTask => "VIEW_TASK".toList
  | .manageAssignments => "MANAGE_ASSIGNMENTS".toList
  | .reviewSubmissions => "REVIEW_SUBMISSIONS".toList
  | .moderateCommunity => "MODERATE_COMMUNITY".toList

def supportedPermissions : List Text :=
  [.viewTask, .manageAssignments, .reviewSubmissions, .moderateCommunity].map permissionValue

def permissionOrder (code : Text) : ℕ := supportedPermissions.idxOf code

inductive CollaboratorError
  | taskNotFound (task : TaskId)
  | noGrantStanding
  | unsupportedValue (unsupported : List Text)
  | emptyPermissions
  | grantBeyondOwn (granted grantor : List Text)
  | unknownTarget (teacher : UserId)
  | notTeacher (teacher : UserId) (role : Role)
  | duplicate (task : TaskId) (teacher : UserId)
  | removeDenied
  | collaboratorMissing (task : TaskId) (teacher : UserId)
  deriving DecidableEq

namespace CollaboratorError

def code : CollaboratorError → ErrorCode
  | taskNotFound _ | collaboratorMissing _ _ => .notFound
  | noGrantStanding | grantBeyondOwn _ _ | removeDenied => .permissionDenied
  | _ => .validationError

def statusCode : CollaboratorError → ℕ
  | taskNotFound _ | collaboratorMissing _ _ => 404
  | noGrantStanding | grantBeyondOwn _ _ | removeDenied => 403
  | duplicate _ _ => 409
  | _ => 400

def message : CollaboratorError → String
  | taskNotFound _ => "任务不存在"
  | noGrantStanding => "只有任务所有者、管理员或现有协作者可以添加任务协作者"
  | unsupportedValue _ => "存在不支持的取值"
  | emptyPermissions => "权限集合不能为空"
  | grantBeyondOwn _ _ => "协作者不能授予超出自身拥有的权限"
  | unknownTarget _ => "指定的协作者账号不存在"
  | notTeacher _ _ => "协作者必须是教师账号"
  | duplicate _ _ => "该教师已是本任务协作者"
  | removeDenied => "只有任务所有者或管理员可以移除任务协作者"
  | collaboratorMissing _ _ => "任务协作者不存在"

end CollaboratorError

def normalizePermissions (upper : Text → Text) (values : List Text) :
    Except CollaboratorError (List Text) := do
  let normalized := normalizedCodes upper values
  let unsupported := normalized.filter (· ∉ supportedPermissions)
  ensure (unsupported = []) (.unsupportedValue (sorted unsupported))
  ensure (normalized ≠ []) .emptyPermissions
  return normalized.mergeSort fun a b => decide (permissionOrder a ≤ permissionOrder b)

structure TaskCollaborator where
  taskId : TaskId
  teacherId : UserId
  permissions : List Text
  deriving DecidableEq

inductive AuditAction
  | added
  | removed
  deriving DecidableEq

structure CollaboratorAudit where
  actor : Actor
  action : AuditAction
  targetId : TaskId
  collaboratorTeacherId : UserId
  permissions : List Text

/-- The owners of the tasks, their collaborators, and the audit rows of these, newest last. -/
structure TeamDb where
  owners : TaskId → Option UserId
  collaborators : List TaskCollaborator
  audit : List CollaboratorAudit

structure AddCall where
  actor : Actor
  taskId : TaskId
  teacherId : UserId
  permissions : List Text

structure RemoveCall where
  actor : Actor
  taskId : TaskId
  teacherId : UserId

inductive Call
  | add (call : AddCall)
  | remove (call : RemoveCall)

def Call.taskId : Call → TaskId
  | add call => call.taskId
  | remove call => call.taskId

/-- `actor.user_id == task.owner_teacher_id or is_admin(actor.role)`. -/
def Exempt (actor : Actor) (owner : UserId) : Prop :=
  actor.userId = owner ∨ isAdmin actor.role = true

instance (actor : Actor) (owner : UserId) : Decidable (Exempt actor owner) :=
  inferInstanceAs (Decidable (_ ∨ _))

namespace TeamDb

variable (db : TeamDb)

def row (task : TaskId) (teacher : UserId) : Option TaskCollaborator :=
  db.collaborators.find? fun row => row.taskId = task ∧ row.teacherId = teacher

/-- The ceiling of a grant: none for the owner and administrators, their own set for others. -/
def grantCeiling (call : AddCall) (owner : UserId) :
    Except CollaboratorError (Option (List Text)) :=
  if Exempt call.actor owner then .ok none
  else do
    let own ← orRefuse .noGrantStanding (db.row call.taskId call.actor.userId)
    return some own.permissions

def removable (call : RemoveCall) (owner : UserId) : Except CollaboratorError TaskCollaborator := do
  ensure (Exempt call.actor owner) .removeDenied
  orRefuse (.collaboratorMissing call.taskId call.teacherId) (db.row call.taskId call.teacherId)

def addCollaborator (call : AddCall) (granted : List Text) : TeamDb where
  owners := db.owners
  collaborators := db.collaborators ++ [⟨call.taskId, call.teacherId, granted⟩]
  audit := db.audit ++ [⟨call.actor, .added, call.taskId, call.teacherId, sorted granted⟩]

def removeCollaborator (call : RemoveCall) (row : TaskCollaborator) : TeamDb where
  owners := db.owners
  collaborators := db.collaborators.erase row
  audit := db.audit ++
    [⟨call.actor, .removed, call.taskId, call.teacherId, sorted row.permissions⟩]

end TeamDb

def grantable (upper : Text → Text) (ceiling : Option (List Text)) (permissions : List Text) :
    Except CollaboratorError (List Text) := do
  let granted ← normalizePermissions upper permissions
  ensure (∀ own ∈ ceiling, granted ⊆ own) (.grantBeyondOwn granted (sorted (ceiling.getD [])))
  return granted

def checkTarget (teacher : UserId) (targetRole : Option Role) : Except CollaboratorError Unit := do
  let role ← orRefuse (.unknownTarget teacher) targetRole
  ensure (role = .teacher) (.notTeacher teacher role)

/-! ### Calls side by side -/

/-- How far a call has come, with what it has read. -/
inductive Worker
  | called (call : Call)
  | locked (call : Call) (owner : UserId)
  | granting (call : AddCall) (ceiling : Option (List Text))
  | directed (call : AddCall) (granted : List Text)
  | cleared (call : AddCall) (granted : List Text)
  | flushed (call : AddCall) (granted : List Text)
  | found (call : RemoveCall) (row : TaskCollaborator)
  | refused (call : Call) (e : CollaboratorError)
  | done (call : Call)

/-- The next statement of a call before its commit; `targetRole` is the answer of the directory. -/
def Worker.advance (upper : Text → Text) (db : TeamDb) (targetRole : Option Role) : Worker → Worker
  | called call =>
    match db.owners call.taskId with
    | some owner => locked call owner
    | none => refused call (.taskNotFound call.taskId)
  | locked (.add call) owner =>
    match db.grantCeiling call owner with
    | .ok ceiling => granting call ceiling
    | .error e => refused (.add call) e
  | granting call ceiling =>
    match (do
      let granted ← grantable upper ceiling call.permissions
      checkTarget call.teacherId targetRole
      return granted) with
    | .ok granted => directed call granted
    | .error e => refused (.add call) e
  | directed call granted =>
    match db.row call.taskId call.teacherId with
    | none => cleared call granted
    | some _ => refused (.add call) (.duplicate call.taskId call.teacherId)
  -- The constraint of the table has the last word at the flush.
  | cleared call granted =>
    match db.row call.taskId call.teacherId with
    | none => flushed call granted
    | some _ => refused (.add call) (.duplicate call.taskId call.teacherId)
  | locked (.remove call) owner =>
    match db.removable call owner with
    | .ok row => found call row
    | .error e => refused (.remove call) e
  | worker => worker

inductive Commit : Worker → TeamDb → Call → Worker → TeamDb → Prop
  | add (call : AddCall) (granted : List Text) (db : TeamDb) :
      Commit (.flushed call granted) db (.add call) (.done (.add call))
        (db.addCollaborator call granted)
  | remove (call : RemoveCall) (row : TaskCollaborator) (db : TeamDb) :
      Commit (.found call row) db (.remove call) (.done (.remove call))
        (db.removeCollaborator call row)

/-- The row of the task is locked from its first read to the end of the call. -/
def Worker.Locks : Worker → TaskId → Prop
  | called _, _ | refused _ _, _ | done _, _ => False
  | locked call _, task => call.taskId = task
  | granting call _, task | directed call _, task | cleared call _, task | flushed call _, task =>
    call.taskId = task
  | found call _, task => call.taskId = task

section Protocol

variable (upper : Text → Text)

def Grantable (db : TeamDb) (call : AddCall) (granted : List Text) : Prop :=
  ∃ owner ceiling, db.owners call.taskId = some owner ∧ db.grantCeiling call owner = .ok ceiling ∧
    grantable upper ceiling call.permissions = .ok granted

def Worker.Known (db : TeamDb) : Worker → Prop
  | called _ | refused _ _ | done _ => True
  | locked call owner => db.owners call.taskId = some owner
  | granting call ceiling => ∃ owner, db.owners call.taskId = some owner ∧
      db.grantCeiling call owner = .ok ceiling
  | directed call granted => Grantable upper db call granted
  | cleared call granted | flushed call granted => Grantable upper db call granted ∧
      db.row call.taskId call.teacherId = none
  | found call row => ∃ owner, db.owners call.taskId = some owner ∧
      db.removable call owner = .ok row

def collaboratorProtocol : Protocol TeamDb TaskId Worker Call where
  locks := Worker.Locks
  known worker db := worker.Known upper db
  start worker := ∃ call, worker = .called call
  read worker db worker' := ∃ targetRole, worker' = worker.advance upper db targetRole
  commit := Commit

structure TeamDb.Initial (db : TeamDb) : Prop where
  collaborators : db.collaborators = []
  audit : db.audit = []

end Protocol

/-! ### Permission sets -/

section PermissionSets

variable {upper : Text → Text} {values own granted : List Text} {ceiling : Option (List Text)}

theorem normalizedCodes_nodup : (normalizedCodes upper values).Nodup := by
  unfold normalizedCodes
  refine List.foldlRecOn values _ List.nodup_nil fun normalized hnodup raw _ => ?_
  dsimp only
  split
  next hnew => exact hnodup.append (List.nodup_singleton _) (List.disjoint_singleton.mpr hnew.2)
  next => exact hnodup

/-- An answered set is made of supported codes, each once and in their order. -/
theorem normalizePermissions_canonical (h : normalizePermissions upper values = .ok granted) :
    granted ≠ [] ∧ granted.Sublist supportedPermissions := by
  obtain ⟨_, hsupported, h⟩ := bind_ok.mp h
  obtain ⟨_, hne, h⟩ := bind_ok.mp h
  obtain rfl := Except.ok.inj h
  have hmem : ∀ code ∈ normalizedCodes upper values, code ∈ supportedPermissions := by
    intro code hcode
    have hnot := List.filter_eq_nil_iff.mp (ensure_ok.mp hsupported) code hcode
    simpa using hnot
  have hperm := List.mergeSort_perm (normalizedCodes upper values)
    fun a b => decide (permissionOrder a ≤ permissionOrder b)
  refine ⟨fun hnil => ensure_ok.mp hne ?_, ?_⟩
  · rw [hnil] at hperm
    exact List.nil_perm.mp hperm
  · -- Supported codes of the same place are the same code.
    let r (a b : Text) : Prop := permissionOrder a < permissionOrder b ∨ a = b
    have hanti : Std.Antisymm r := ⟨fun a b hab hba => by
      rcases hab with hab | hab
      · rcases hba with hba | hba
        · exact absurd hab (Nat.lt_asymm hba)
        · exact hba.symm
      · exact hab⟩
    have hle := @List.pairwise_mergeSort _
      (fun a b => decide (permissionOrder a ≤ permissionOrder b))
      (fun a b c hab hbc => decide_eq_true ((of_decide_eq_true hab).trans (of_decide_eq_true hbc)))
      (fun a b => by simpa using Nat.le_total _ _) (normalizedCodes upper values)
    have hsorted := hle.imp_of_mem (R := _) (S := r) fun {a b} ha hb hab => by
      rcases Nat.lt_or_eq_of_le (of_decide_eq_true hab) with hlt | heq
      · exact Or.inl hlt
      · exact Or.inr ((List.idxOf_inj (hmem a (hperm.subset ha))).mp heq)
    refine List.sublist_of_subperm_of_pairwise (r := r) ?_ hsorted ?_
    · exact List.subperm_of_subset (hperm.nodup_iff.mpr normalizedCodes_nodup)
        fun code hcode => hmem code (hperm.subset hcode)
    · show List.Pairwise (fun a b => permissionOrder a < permissionOrder b ∨ a = b) _
      decide

theorem grantable_canonical (h : grantable upper ceiling values = .ok granted) :
    granted ≠ [] ∧ granted.Sublist supportedPermissions := by
  obtain ⟨set, hset, h⟩ := bind_ok.mp h
  obtain ⟨_, _, h⟩ := bind_ok.mp h
  obtain rfl := Except.ok.inj h
  exact normalizePermissions_canonical hset

theorem grantable_within (h : grantable upper (some own) values = .ok granted) : granted ⊆ own := by
  obtain ⟨set, _, h⟩ := bind_ok.mp h
  obtain ⟨_, hwithin, h⟩ := bind_ok.mp h
  obtain rfl := Except.ok.inj h
  exact ensure_ok.mp hwithin own rfl

end PermissionSets

/-! ### What the rows and the audit say -/

namespace CollaboratorAudit

def Grants (task : TaskId) (teacher : UserId) (code : Text) (a : CollaboratorAudit) : Prop :=
  a.action = .added ∧ a.targetId = task ∧ a.collaboratorTeacherId = teacher ∧ code ∈ a.permissions

def Adds (task : TaskId) (teacher : UserId) (a : CollaboratorAudit) : Prop :=
  a.action = .added ∧ a.targetId = task ∧ a.collaboratorTeacherId = teacher

def Removes (task : TaskId) (teacher : UserId) (a : CollaboratorAudit) : Prop :=
  a.action = .removed ∧ a.targetId = task ∧ a.collaboratorTeacherId = teacher

def ByExempt (owners : TaskId → Option UserId) (a : CollaboratorAudit) : Prop :=
  ∃ owner, owners a.targetId = some owner ∧ Exempt a.actor owner

end CollaboratorAudit

open CollaboratorAudit

/-- A capability that is held at the end of the log, by a grant with no removal behind it. The
grantor is exempt, or held the capability itself, by such a chain, when the grant was committed. -/
inductive Chained (owners : TaskId → Option UserId) (task : TaskId) :
    List CollaboratorAudit → UserId → Text → Prop
  | root {log before after : List CollaboratorAudit} {grant : CollaboratorAudit} {teacher : UserId}
      {code : Text} (heq : log = before ++ grant :: after) (hgrant : grant.Grants task teacher code)
      (hkept : ∀ a ∈ after, ¬ a.Removes task teacher) (hexempt : grant.ByExempt owners) :
      Chained owners task log teacher code
  | link {log before after : List CollaboratorAudit} {grant : CollaboratorAudit} {teacher : UserId}
      {code : Text} (heq : log = before ++ grant :: after) (hgrant : grant.Grants task teacher code)
      (hkept : ∀ a ∈ after, ¬ a.Removes task teacher)
      (hheld : Chained owners task before grant.actor.userId code) :
      Chained owners task log teacher code

/-- A grant of one who is not exempt comes from one who was added and not removed since. -/
def Standing (owners : TaskId → Option UserId) (before : List CollaboratorAudit)
    (a : CollaboratorAudit) : Prop :=
  a.action = .added → ¬ a.ByExempt owners →
    Since (Adds a.targetId a.actor.userId) (Removes a.targetId a.actor.userId) before

namespace TeamDb

variable (db : TeamDb)

def Holds (task : TaskId) (teacher : UserId) (code : Text) : Prop :=
  ∃ row ∈ db.collaborators, row.taskId = task ∧ row.teacherId = teacher ∧ code ∈ row.permissions

structure Sound : Prop where
  unique : db.collaborators.Pairwise fun a b => ¬ (a.taskId = b.taskId ∧ a.teacherId = b.teacherId)
  canonical : ∀ row ∈ db.collaborators,
    row.permissions ≠ [] ∧ row.permissions.Sublist supportedPermissions
  kept : ∀ task teacher code, db.Holds task teacher code ↔
    Since (Grants task teacher code) (Removes task teacher) db.audit
  chained : ∀ task teacher code, db.Holds task teacher code →
    Chained db.owners task db.audit teacher code
  standing : Throughout (Standing db.owners) db.audit

end TeamDb

section Commits

variable {upper : Text → Text} {db db' : TeamDb} {owners : TaskId → Option UserId}
  {log : List CollaboratorAudit} {task : TaskId} {teacher : UserId} {code : Text}
  {row : TaskCollaborator} {granted : List Text}

theorem row_some (h : db.row task teacher = some row) :
    row ∈ db.collaborators ∧ row.taskId = task ∧ row.teacherId = teacher := by
  have hfound := List.find?_some h
  rw [decide_eq_true_eq] at hfound
  exact ⟨List.mem_of_find?_eq_some h, hfound.1, hfound.2⟩

theorem row_none (h : db.row task teacher = none) (hrow : row ∈ db.collaborators) :
    ¬ (row.taskId = task ∧ row.teacherId = teacher) := by
  have hnot := List.find?_eq_none.mp h row hrow
  rwa [decide_eq_true_eq] at hnot

/-- A chain outlasts every entry that does not remove its last collaborator. -/
theorem Chained.concat {a : CollaboratorAudit} (h : Chained owners task log teacher code)
    (hnot : ¬ a.Removes task teacher) : Chained owners task (log ++ [a]) teacher code := by
  have hstill : ∀ after : List CollaboratorAudit, (∀ b ∈ after, ¬ b.Removes task teacher) →
      ∀ b ∈ after ++ [a], ¬ b.Removes task teacher := by
    intro after hkept b hb
    rcases List.mem_append.mp hb with hb | hb
    · exact hkept b hb
    · rwa [List.mem_singleton.mp hb]
  have hlonger : ∀ {before after : List CollaboratorAudit} {grant : CollaboratorAudit},
      log = before ++ grant :: after → log ++ [a] = before ++ grant :: (after ++ [a]) := by
    intro before after grant heq
    rw [heq, List.append_assoc, List.cons_append]
  cases h with
  | root heq hgrant hkept hexempt =>
    exact .root (hlonger heq) hgrant (hstill _ hkept) hexempt
  | link heq hgrant hkept hheld =>
    exact .link (hlonger heq) hgrant (hstill _ hkept) hheld

theorem Chained.since (h : Chained owners task log teacher code) :
    Since (Grants task teacher code) (Removes task teacher) log := by
  cases h with
  | root heq hgrant hkept hexempt => exact ⟨_, _, _, heq, hgrant, hkept⟩
  | link heq hgrant hkept hheld => exact ⟨_, _, _, heq, hgrant, hkept⟩

theorem holds_add {call : AddCall} : (db.addCollaborator call granted).Holds task teacher code ↔
    db.Holds task teacher code ∨
      call.taskId = task ∧ call.teacherId = teacher ∧ code ∈ granted := by
  unfold TeamDb.Holds TeamDb.addCollaborator
  dsimp only
  constructor
  · rintro ⟨row, hrow, htask, hteacher, hcode⟩
    rcases List.mem_append.mp hrow with hrow | hrow
    · exact Or.inl ⟨row, hrow, htask, hteacher, hcode⟩
    · obtain rfl := List.mem_singleton.mp hrow
      exact Or.inr ⟨htask, hteacher, hcode⟩
  · rintro (⟨row, hrow, hrest⟩ | hnew)
    · exact ⟨row, List.mem_append_left _ hrow, hrest⟩
    · exact ⟨_, List.mem_append_right _ (List.mem_singleton_self _), hnew⟩

/-- A commit of a grant keeps the rows and the audit in agreement. -/
theorem TeamDb.Sound.add (h : db.Sound) {call : AddCall}
    (hgrantable : Grantable upper db call granted) (hnone : db.row call.taskId call.teacherId = none) :
    (db.addCollaborator call granted).Sound := by
  obtain ⟨owner, ceiling, howner, hceiling, hgranted⟩ := hgrantable
  let entry : CollaboratorAudit :=
    ⟨call.actor, .added, call.taskId, call.teacherId, sorted granted⟩
  have haudit : (db.addCollaborator call granted).audit = db.audit ++ [entry] := rfl
  have hnot : ∀ task teacher, ¬ entry.Removes task teacher := fun _ _ h => (by cases h.1)
  have hgrants : ∀ task teacher code, entry.Grants task teacher code ↔
      call.taskId = task ∧ call.teacherId = teacher ∧ code ∈ granted := by
    intro task teacher code
    unfold Grants
    dsimp only [entry]
    unfold sorted
    rw [List.mem_mergeSort, and_iff_right rfl]
  -- The ceiling is what the grantor holds.
  have hgrantor : entry.ByExempt db.owners ∨
      ∃ own, db.row call.taskId call.actor.userId = some own ∧ granted ⊆ own.permissions := by
    unfold TeamDb.grantCeiling at hceiling
    split at hceiling
    next hexempt => exact Or.inl ⟨owner, howner, hexempt⟩
    next =>
      obtain ⟨own, hown, hceiling⟩ := bind_ok.mp hceiling
      obtain rfl := Except.ok.inj hceiling
      exact Or.inr ⟨own, orRefuse_ok.mp hown, grantable_within hgranted⟩
  refine ⟨?_, fun row hrow => ?_, fun task teacher code => ?_,
    fun task teacher code hholds => ?_, ?_⟩
  · refine List.pairwise_append.mpr ⟨h.unique, List.pairwise_singleton _ _, ?_⟩
    intro row hrow new hnew
    obtain rfl := List.mem_singleton.mp hnew
    exact row_none hnone hrow
  · rcases List.mem_append.mp hrow with hrow | hrow
    · exact h.canonical row hrow
    · obtain rfl := List.mem_singleton.mp hrow
      exact grantable_canonical hgranted
  · rw [holds_add, haudit, since_concat, hgrants, h.kept, and_iff_left (hnot task teacher)]
    exact Or.comm
  · rw [haudit]
    rcases holds_add.mp hholds with hbefore | ⟨rfl, rfl, hcode⟩
    · exact (h.chained task teacher code hbefore).concat (hnot task teacher)
    · have hgrant := (hgrants _ _ _).mpr ⟨rfl, rfl, hcode⟩
      rcases hgrantor with hexempt | ⟨own, hown, hwithin⟩
      · exact .root rfl hgrant (fun _ h => (by cases h)) hexempt
      · obtain ⟨hrow, htask, hteacher⟩ := row_some hown
        exact .link rfl hgrant (fun _ h => (by cases h))
          (h.chained _ _ _ ⟨own, hrow, htask, hteacher, hwithin hcode⟩)
  · refine throughout_concat.mpr ⟨h.standing, fun _ hexempt => ?_⟩
    obtain ⟨own, hown, hwithin⟩ := hgrantor.resolve_left hexempt
    obtain ⟨hrow, htask, hteacher⟩ := row_some hown
    obtain ⟨code, hcode⟩ := List.exists_mem_of_ne_nil _ (h.canonical own hrow).1
    have hsince := (h.kept _ _ code).mp ⟨own, hrow, htask, hteacher, hcode⟩
    exact hsince.mono fun a ha => ⟨ha.1, ha.2.1, ha.2.2.1⟩

/-- What is left after a removal. -/
theorem holds_remove (h : db.Sound) {call : RemoveCall} (hrow : row ∈ db.collaborators)
    (htask : row.taskId = call.taskId) (hteacher : row.teacherId = call.teacherId) :
    (db.removeCollaborator call row).Holds task teacher code ↔
      db.Holds task teacher code ∧ ¬ (call.taskId = task ∧ call.teacherId = teacher) := by
  have hnodup : db.collaborators.Nodup := h.unique.imp fun hne heq => hne (by rw [heq]; simp)
  unfold TeamDb.Holds TeamDb.removeCollaborator
  dsimp only
  constructor
  · rintro ⟨row', hrow', rfl, rfl, hcode⟩
    obtain ⟨hne, hmem⟩ := hnodup.mem_erase_iff.mp hrow'
    refine ⟨⟨row', hmem, rfl, rfl, hcode⟩, fun ⟨htask', hteacher'⟩ => hne ?_⟩
    by_contra hother
    have hsymm : Std.Symm fun a b : TaskCollaborator =>
        ¬ (a.taskId = b.taskId ∧ a.teacherId = b.teacherId) :=
      ⟨fun _ _ hab hba => hab ⟨hba.1.symm, hba.2.symm⟩⟩
    exact h.unique.forall hmem hrow hother
      ⟨htask'.symm.trans htask.symm, hteacher'.symm.trans hteacher.symm⟩
  · rintro ⟨⟨row', hmem, rfl, rfl, hcode⟩, hother⟩
    refine ⟨row', hnodup.mem_erase_iff.mpr ⟨?_, hmem⟩, rfl, rfl, hcode⟩
    rintro rfl
    exact hother ⟨htask.symm, hteacher.symm⟩

theorem TeamDb.Sound.remove (h : db.Sound) {call : RemoveCall} (hrow : row ∈ db.collaborators)
    (htask : row.taskId = call.taskId) (hteacher : row.teacherId = call.teacherId) :
    (db.removeCollaborator call row).Sound := by
  let entry : CollaboratorAudit :=
    ⟨call.actor, .removed, call.taskId, call.teacherId, sorted row.permissions⟩
  have haudit : (db.removeCollaborator call row).audit = db.audit ++ [entry] := rfl
  have hremoves : ∀ task teacher, entry.Removes task teacher ↔
      call.taskId = task ∧ call.teacherId = teacher := fun _ _ => and_iff_right rfl
  have hgrants : ∀ task teacher code, ¬ entry.Grants task teacher code :=
    fun _ _ _ h => (by cases h.1)
  refine ⟨h.unique.sublist List.erase_sublist, fun row' hrow' => ?_, fun task teacher code => ?_,
    fun task teacher code hholds => ?_, ?_⟩
  · exact h.canonical row' (List.mem_of_mem_erase hrow')
  · rw [holds_remove h hrow htask hteacher, haudit, since_concat, hremoves, h.kept,
      or_iff_right (hgrants task teacher code)]
  · obtain ⟨hbefore, hother⟩ := (holds_remove h hrow htask hteacher).mp hholds
    rw [haudit]
    exact (h.chained task teacher code hbefore).concat (mt (hremoves task teacher).mp hother)
  · exact throughout_concat.mpr ⟨h.standing, fun hadded => (by cases hadded)⟩

end Commits

/-! ### The lock of the task -/

section TaskLock

variable {upper : Text → Text} {db db' : TeamDb} {worker : Worker} {task : TaskId}
  {teacher : UserId}

theorem row_add_other {call : AddCall} {granted : List Text} (h : call.taskId ≠ task) :
    (db.addCollaborator call granted).row task teacher = db.row task teacher := by
  unfold TeamDb.row TeamDb.addCollaborator
  simp [List.find?_append, h]

theorem row_remove_other {call : RemoveCall} {row : TaskCollaborator} (h : row.taskId ≠ task) :
    (db.removeCollaborator call row).row task teacher = db.row task teacher := by
  unfold TeamDb.row TeamDb.removeCollaborator
  dsimp only
  induction db.collaborators with
  | nil => rfl
  | cons first rows ih =>
    by_cases hfirst : first = row
    · subst hfirst
      rw [List.erase_cons_head, List.find?_cons_of_neg (by simp [h])]
    · rw [List.erase_cons_tail (by simpa using hfirst), List.find?_cons, List.find?_cons, ih]

/-- What a call has read stays so while the rows of the task that it has locked do. -/
theorem Worker.Known.congr (h : worker.Known upper db) (howners : db'.owners = db.owners)
    (hrow : ∀ task, worker.Locks task → ∀ teacher, db'.row task teacher = db.row task teacher) :
    worker.Known upper db' := by
  have hgrantable : ∀ {call : AddCall} {granted : List Text},
      (∀ teacher, db'.row call.taskId teacher = db.row call.taskId teacher) →
      Grantable upper db call granted → Grantable upper db' call granted := by
    rintro call granted hrow ⟨owner, ceiling, howner, hceiling, hgranted⟩
    refine ⟨owner, ceiling, howners ▸ howner, ?_, hgranted⟩
    rw [← hceiling]
    unfold TeamDb.grantCeiling
    rw [hrow]
  cases worker with
  | called call => trivial
  | refused call e => trivial
  | done call => trivial
  | locked call owner => exact (congrFun howners _).trans h
  | granting call ceiling =>
    obtain ⟨owner, howner, hceiling⟩ := h
    refine ⟨owner, (congrFun howners _).trans howner, ?_⟩
    rw [← hceiling]
    unfold TeamDb.grantCeiling
    rw [hrow _ rfl]
  | directed call granted => exact hgrantable (hrow _ rfl) h
  | cleared call granted => exact ⟨hgrantable (hrow _ rfl) h.1, (hrow _ rfl _).trans h.2⟩
  | flushed call granted => exact ⟨hgrantable (hrow _ rfl) h.1, (hrow _ rfl _).trans h.2⟩
  | found call row =>
    obtain ⟨owner, howner, hfound⟩ := h
    refine ⟨owner, (congrFun howners _).trans howner, ?_⟩
    rw [← hfound]
    unfold TeamDb.removable
    rw [hrow _ rfl]

/-- A statement adds what it reads to what is known. -/
theorem Worker.Known.advance (h : worker.Known upper db) (targetRole : Option Role) :
    (worker.advance upper db targetRole).Known upper db := by
  unfold Worker.advance
  split
  next call =>
    split
    next owner howner => exact howner
    next => trivial
  next call owner =>
    split
    next ceiling hceiling => exact ⟨owner, h, hceiling⟩
    next => trivial
  next call ceiling =>
    split
    next granted hgranted =>
      obtain ⟨owner, howner, hceiling⟩ := h
      obtain ⟨set, hset, hrest⟩ := bind_ok.mp hgranted
      obtain ⟨_, _, hrest⟩ := bind_ok.mp hrest
      obtain rfl := Except.ok.inj hrest
      exact ⟨owner, ceiling, howner, hceiling, hset⟩
    next => trivial
  next call granted =>
    split
    next hnone => exact ⟨h, hnone⟩
    next => trivial
  next call granted =>
    split
    next hnone => exact ⟨h.1, hnone⟩
    next => trivial
  next call owner =>
    split
    next row hrow => exact ⟨owner, h, hrow⟩
    next => trivial
  next => exact h

theorem removable_row {call : RemoveCall} {owner : UserId} {row : TaskCollaborator}
    (h : db.removable call owner = .ok row) :
    row ∈ db.collaborators ∧ row.taskId = call.taskId ∧ row.teacherId = call.teacherId := by
  obtain ⟨_, _, h⟩ := bind_ok.mp h
  exact row_some (orRefuse_ok.mp h)

theorem collaboratorProtocol_sound : (collaboratorProtocol upper).Sound fun db => db.Sound where
  start_locks worker task hstart hlocks := by
    obtain ⟨call, rfl⟩ := hstart
    exact hlocks
  start_known worker db hstart := by
    obtain ⟨call, rfl⟩ := hstart
    trivial
  read_known worker db worker' hknown hread := by
    obtain ⟨targetRole, rfl⟩ := hread
    exact hknown.advance targetRole
  commit_inv worker db call worker' db' hsound hknown hcommit := by
    cases hcommit with
    | add call granted => exact hsound.add hknown.1 hknown.2
    | remove call row =>
      obtain ⟨owner, _, hfound⟩ := hknown
      obtain ⟨hrow, htask, hteacher⟩ := removable_row hfound
      exact hsound.remove hrow htask hteacher
  commit_known worker db call worker' db' _ _ hcommit := by
    cases hcommit <;> trivial
  commit_stable worker db call worker' db' other _ hknown hcommit hother hdisjoint := by
    cases hcommit with
    | add call granted =>
      refine hother.congr rfl fun task hlocks teacher => row_add_other ?_
      rintro rfl
      exact hdisjoint _ rfl hlocks
    | remove call row =>
      obtain ⟨owner, _, hfound⟩ := hknown
      refine hother.congr rfl fun task hlocks teacher => row_remove_other ?_
      rintro rfl
      exact hdisjoint _ (removable_row hfound).2.1.symm hlocks

theorem initial_sound (h : db.Initial) : db.Sound := by
  have hempty : ∀ task teacher code, ¬ db.Holds task teacher code := by
    rintro task teacher code ⟨row, hrow, _⟩
    rw [h.collaborators] at hrow
    cases hrow
  refine ⟨h.collaborators ▸ .nil, fun row hrow => ?_, fun task teacher code => ?_,
    fun task teacher code hholds => absurd hholds (hempty task teacher code), ?_⟩
  · rw [h.collaborators] at hrow
    cases hrow
  · rw [h.audit]
    exact iff_of_false (hempty task teacher code) not_since_nil
  · rw [h.audit]
    exact throughout_nil

end TaskLock

/-! ### The law -/

/-- No capability is held that was not granted in a chain from the owner or an administrator, and
no grant comes from a collaborator after the removal, unless added again. -/
structure TeamDb.NeverEscalates (db : TeamDb) : Prop where
  unique : db.collaborators.Pairwise fun a b => ¬ (a.taskId = b.taskId ∧ a.teacherId = b.teacherId)
  canonical : ∀ row ∈ db.collaborators,
    row.permissions ≠ [] ∧ row.permissions.Sublist supportedPermissions
  chained : ∀ task teacher code,
    db.Holds task teacher code ↔ Chained db.owners task db.audit teacher code
  late : ∀ before removal between grant after,
    db.audit = before ++ removal :: between ++ grant :: after →
    removal.Removes grant.targetId grant.actor.userId → grant.action = .added →
    ¬ grant.ByExempt db.owners → ∃ a ∈ between, a.Adds grant.targetId grant.actor.userId

theorem TeamDb.Sound.neverEscalates {db : TeamDb} (h : db.Sound) : db.NeverEscalates where
  unique := h.unique
  canonical := h.canonical
  chained task teacher code := by
    refine ⟨h.chained task teacher code, fun hchained => ?_⟩
    exact (h.kept task teacher code).mpr hchained.since
  late before removal between grant after haudit hremoves hadded hexempt := by
    have hsince := h.standing _ grant after haudit hadded hexempt
    refine hsince.behind hremoves fun hadds => ?_
    exact absurd (hremoves.1.symm.trans hadds.1) (by decide)

abbrev Entry (ι : Type) := Config ι TeamDb Worker × Move ι Call × Config ι TeamDb Worker

/-- The step leaves owners, rows and audit as they are. -/
def Unchanged {ι : Type} (e : Entry ι) : Prop := e.2.2.store = e.1.store

/-- The step changes the rows and adds one audit row. -/
def Effective {ι : Type} (e : Entry ι) : Prop :=
  e.2.2.store.owners = e.1.store.owners ∧ e.2.2.store.collaborators ≠ e.1.store.collaborators ∧
    ∃ row, e.2.2.store.audit = e.1.store.audit ++ [row]

/-- A refused call has changed nothing, nor has a call that is not through; a call that is done has
had an effect once. -/
structure Answered {ι : Type} (l : List (Entry ι)) (c : Config ι TeamDb Worker) : Prop where
  refused : ∀ i, (∀ call, c.proc i ≠ .done call) → ∀ e ∈ l, e.2.1.1 = i → Unchanged e
  done : ∀ i call, c.proc i = .done call → ∃ before e after, l = before ++ e :: after ∧
    e.2.1 = (i, some call) ∧ Effective e ∧
    ∀ other ∈ before ++ after, other.2.1.1 = i → Unchanged other

section Law

variable {ι : Type} [DecidableEq ι] {upper : Text → Text} {c₀ c : Config ι TeamDb Worker}
  {l : List (Entry ι)}

theorem commit_effective {worker worker' : Worker} {db db' : TeamDb} {call : Call}
    (hknown : worker.Known upper db) (h : Commit worker db call worker' db') :
    db'.owners = db.owners ∧ db'.collaborators ≠ db.collaborators ∧
      ∃ row, db'.audit = db.audit ++ [row] := by
  cases h with
  | add call granted =>
    refine ⟨rfl, fun heq => ?_, _, rfl⟩
    have hlength := congrArg List.length heq
    unfold TeamDb.addCollaborator at hlength
    rw [List.length_append] at hlength
    exact absurd hlength (Nat.succ_ne_self _)
  | remove call row =>
    obtain ⟨owner, _, hfound⟩ := hknown
    have hrow := (removable_row hfound).1
    refine ⟨rfl, fun heq => ?_, _, rfl⟩
    have hlength := congrArg List.length heq
    have hpos := List.length_pos_of_mem hrow
    unfold TeamDb.removeCollaborator at hlength
    rw [List.length_erase_of_mem hrow] at hlength
    omega

theorem commit_ends {worker worker' : Worker} {db db' : TeamDb} {call : Call}
    (h : Commit worker db call worker' db') :
    (∀ other, worker ≠ .done other) ∧ worker' = .done call := by
  cases h with
  | add call granted => exact ⟨fun _ h => (by cases h), rfl⟩
  | remove call row => exact ⟨fun _ h => (by cases h), rfl⟩

theorem advance_done {db : TeamDb} {targetRole : Option Role} {worker : Worker} {call : Call} :
    worker.advance upper db targetRole = .done call ↔ worker = .done call := by
  constructor
  · intro h
    unfold Worker.advance at h
    split at h <;> try (split at h <;> cases h)
    exact h
  · rintro rfl
    rfl

/-- A step of a call: one that changes nothing and ends nothing, or its commit. -/
theorem step_cases {c' : Config ι TeamDb Worker} {move : Move ι Call}
    (hc : ((collaboratorProtocol upper).system ι TeamDb.Initial).Reach c)
    (hstep : ((collaboratorProtocol upper).system ι TeamDb.Initial).step c move c') :
    (∀ j, j ≠ move.1 → c'.proc j = c.proc j) ∧
      ((c'.store = c.store ∧ ∀ call, c'.proc move.1 = .done call ↔ c.proc move.1 = .done call) ∨
        ∃ call, move.2 = some call ∧ (∀ other, c.proc move.1 ≠ .done other) ∧
          c'.proc move.1 = .done call ∧ Effective (c, move, c')) := by
  have hcurrent := collaboratorProtocol_sound.current (fun _ => initial_sound) hc
  cases hstep with
  | read i worker hread hfree =>
    obtain ⟨targetRole, rfl⟩ := hread
    refine ⟨fun j hj => Function.update_of_ne hj _ _, Or.inl ⟨rfl, fun call => ?_⟩⟩
    dsimp only
    rw [Function.update_self]
    exact advance_done
  | commit i call worker db' hcommit hfree =>
    have heffective := commit_effective (hcurrent.known i) hcommit
    obtain ⟨hbefore, hafter⟩ := commit_ends hcommit
    refine ⟨fun j hj => Function.update_of_ne hj _ _, Or.inr ⟨call, rfl, hbefore, ?_, heffective⟩⟩
    dsimp only
    rw [Function.update_self, hafter]

theorem answered (hc₀ : ((collaboratorProtocol upper).system ι TeamDb.Initial).init c₀)
    (hrun : ((collaboratorProtocol upper).system ι TeamDb.Initial).Run c₀ l c) : Answered l c := by
  induction hrun with
  | nil =>
    refine ⟨fun _ _ e he => (by cases he), fun i call hdone => ?_⟩
    obtain ⟨first, hfirst⟩ := hc₀.2 i
    rw [hfirst] at hdone
    cases hdone
  | @snoc c c' move l hrun hstep ih =>
    obtain ⟨hothers, hmove⟩ := step_cases (hrun.reach (.init hc₀)) hstep
    constructor
    · intro i hopen e he hi
      rcases List.mem_append.mp he with he | he
      · refine ih.refused i (fun call hdone => ?_) e he hi
        by_cases hself : i = move.1
        · subst hself
          rcases hmove with ⟨_, hsame⟩ | ⟨_, _, hnot, _⟩
          · exact hopen call ((hsame call).mpr hdone)
          · exact hnot call hdone
        · exact hopen call ((hothers i hself).trans hdone)
      · obtain rfl := List.mem_singleton.mp he
        subst hi
        rcases hmove with ⟨hstore, _⟩ | ⟨call, _, _, hdone, _⟩
        · exact hstore
        · exact absurd hdone (hopen call)
    · intro i call hdone
      by_cases hself : i = move.1
      · subst hself
        rcases hmove with ⟨hstore, hsame⟩ | ⟨call', hlabel, hnot, hdone', heffective⟩
        · obtain ⟨before, e, after, rfl, he, heffective, hrest⟩ :=
            ih.done _ call ((hsame call).mp hdone)
          refine ⟨before, e, after ++ [(c, move, c')], by simp, he, heffective, ?_⟩
          intro other hother hi
          rw [← List.append_assoc] at hother
          rcases List.mem_append.mp hother with hother | hother
          · exact hrest other hother hi
          · obtain rfl := List.mem_singleton.mp hother
            exact hstore
        · obtain rfl := Worker.done.inj (hdone'.symm.trans hdone)
          refine ⟨l, (c, move, c'), [], rfl, Prod.ext rfl hlabel, heffective, ?_⟩
          intro other hother hi
          rw [List.append_nil] at hother
          exact ih.refused _ hnot other hother hi
      · obtain ⟨before, e, after, rfl, he, heffective, hrest⟩ :=
          ih.done i call ((hothers i hself).symm.trans hdone)
        refine ⟨before, e, after ++ [(c, move, c')], by simp, he, heffective, ?_⟩
        intro other hother hi
        rw [← List.append_assoc] at hother
        rcases List.mem_append.mp hother with hother | hother
        · exact hrest other hother hi
        · obtain rfl := List.mem_singleton.mp hother
          exact absurd hi.symm hself

end Law

/-- In every run of any calls for any tasks, whatever the directory answers, capabilities never
escalate, and a call has its one effect or none. -/
theorem capabilities_never_escalate {ι : Type} [DecidableEq ι] (upper : Text → Text)
    (c₀ c : Config ι TeamDb Worker) (l : List (Entry ι))
    (hc₀ : ((collaboratorProtocol upper).system ι TeamDb.Initial).init c₀)
    (hrun : ((collaboratorProtocol upper).system ι TeamDb.Initial).Run c₀ l c) :
    c.store.NeverEscalates ∧ Answered l c := by
  have hcurrent := collaboratorProtocol_sound.current (fun _ => initial_sound)
    (hrun.reach (.init hc₀))
  exact ⟨hcurrent.inv.neverEscalates, answered hc₀ hrun⟩

def alone (db : TeamDb) (worker : Worker) : Config Unit TeamDb Worker := ⟨db, fun _ => worker⟩

section Alone

variable {upper : Text → Text} {db db' : TeamDb} {worker worker' : Worker} {call : Call}
  {c₀ : Config Unit TeamDb Worker} {l : List (Entry Unit)}

theorem run_read
    (hrun : ((collaboratorProtocol upper).system Unit TeamDb.Initial).Run c₀ l (alone db worker))
    (targetRole : Option Role) (h : worker.advance upper db targetRole = worker') :
    ∃ l', ((collaboratorProtocol upper).system Unit TeamDb.Initial).Run c₀ l'
      (alone db worker') := by
  have hstep := Protocol.Step.read (P := collaboratorProtocol upper) (alone db worker) () worker'
    ⟨targetRole, h.symm⟩ fun j hj => absurd rfl hj
  exact ⟨_, .snoc hrun hstep⟩

theorem run_commit
    (hrun : ((collaboratorProtocol upper).system Unit TeamDb.Initial).Run c₀ l (alone db worker))
    (h : Commit worker db call worker' db') :
    ∃ l', ((collaboratorProtocol upper).system Unit TeamDb.Initial).Run c₀ l'
      (alone db' worker') := by
  have hstep := Protocol.Step.commit (P := collaboratorProtocol upper) (alone db worker) () call
    worker' db' h fun j hj => absurd rfl hj
  exact ⟨_, .snoc hrun hstep⟩

end Alone

theorem normalize_viewTask :
    normalizePermissions id [permissionValue .viewTask] = .ok [permissionValue .viewTask] := by
  unfold normalizePermissions
  rw [show normalizedCodes id [permissionValue .viewTask] = [permissionValue .viewTask] by decide]
  dsimp only
  rw [List.mergeSort_singleton]
  rfl

/-- The owner of a task lets a teacher view it. -/
theorem owner_grants_view :
    ∃ c : Config Unit TeamDb Worker, c.store.Holds 5 2 (permissionValue .viewTask) ∧
      c.store.NeverEscalates ∧ ∃ l, Answered l c := by
  let call : AddCall := ⟨⟨1, .teacher⟩, 5, 2, [permissionValue .viewTask]⟩
  let db : TeamDb := ⟨fun _ => some 1, [], []⟩
  have hinit : ((collaboratorProtocol id).system Unit TeamDb.Initial).init
      (alone db (.called (.add call))) := ⟨⟨rfl, rfl⟩, fun _ => ⟨.add call, rfl⟩⟩
  have hceiling : db.grantCeiling call 1 = .ok none := if_pos (Or.inl rfl)
  have hgrantable : grantable id none call.permissions = .ok [permissionValue .viewTask] := by
    unfold grantable
    rw [normalize_viewTask]
    rfl
  have hnil : ((collaboratorProtocol id).system Unit TeamDb.Initial).Run
      (alone db (.called (.add call))) [] (alone db (.called (.add call))) := .nil _
  obtain ⟨l₁, h₁⟩ := @run_read _ _ _ (.locked (.add call) 1) _ _ hnil none rfl
  obtain ⟨l₂, h₂⟩ := @run_read _ _ _ (.granting call none) _ _ h₁ none (by
    unfold Worker.advance
    dsimp only
    rw [hceiling])
  obtain ⟨l₃, h₃⟩ := @run_read _ _ _ (.directed call [permissionValue .viewTask]) _ _ h₂
    (some .teacher) (by
      unfold Worker.advance
      dsimp only
      rw [hgrantable]
      rfl)
  obtain ⟨l₄, h₄⟩ := @run_read _ _ _ (.cleared call [permissionValue .viewTask]) _ _ h₃ none rfl
  obtain ⟨l₅, h₅⟩ := @run_read _ _ _ (.flushed call [permissionValue .viewTask]) _ _ h₄ none rfl
  obtain ⟨l₆, h₆⟩ := run_commit h₅ (.add call [permissionValue .viewTask] db)
  obtain ⟨hnever, hanswered⟩ := capabilities_never_escalate id _ _ l₆ hinit h₆
  exact ⟨_, ⟨_, List.mem_singleton_self _, rfl, rfl, List.mem_singleton_self _⟩, hnever, l₆,
    hanswered⟩

end CampusQuest.Collaborators
