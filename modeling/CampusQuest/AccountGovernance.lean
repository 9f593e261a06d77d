import CampusQuest.AdminKick
import CampusQuest.Guards
import CampusQuest.Locking

/-!
Administrators act on accounts: the status transitions of suspend, ban and reactivate, one
row at a time or in a batch, and the flip between teacher and administrator. The flip reads
the target without a lock, locks it, counts the other active administrators, and its UPDATE
fires a trigger that locks those rows one by one and counts again. The transitions count
nobody.
-/

namespace CampusQuest.Identity

open Guards Locking Runs Tables

inductive StatusOperation
  | suspend
  | ban
  | reactivate
  deriving DecidableEq, Repr

namespace StatusOperation

def allowedFrom : StatusOperation → UserStatus → Bool
  | suspend, s => s = .active
  | ban, s => s = .active
  | reactivate, s => s = .suspended || s = .banned

def toStatus : StatusOperation → UserStatus
  | suspend => .suspended
  | ban => .banned
  | reactivate => .active

def action : StatusOperation → AuditAction
  | suspend => .userSuspended
  | ban => .userBanned
  | reactivate => .userReactivated

end StatusOperation

/-- One call of the status surface: a single transition, or a batch over a list of rows that
skips the actor's own. -/
structure Governance where
  actor : Actor
  operation : StatusOperation
  reason : Text
  batch : Bool
  context : Option AuditContext

/-- The gate of `_transition` before the row is locked. -/
def Governance.gate (g : Governance) : Except IdentityError Unit := do
  ensure (isAdmin g.actor.role = true) .permissionDenied
  ensure (strip g.reason ≠ []) .validationError

def Governance.transition (g : Governance) (db : Db) (user : UserId) (row : User) :
    Except IdentityError Db := do
  ensure (g.operation.allowedFrom row.status = true) .conflict
  let db := { db with users := db.users.put user { row with status := g.operation.toStatus } }
  .ok (db.appendAudit ⟨g.actor, g.operation.action, user, some g.reason,
    some (.status row.status), some (.status g.operation.toStatus), g.context⟩)

/-- One call of `change_role`, with the role that its unlocked read has seen. -/
structure RoleChange where
  actor : Actor
  target : UserId
  oldRole : Role
  newRole : Role
  context : Option AuditContext

def ActiveAdmin (db : Db) (user : UserId) : Prop :=
  ∃ row, db.users.get user = some row ∧ row.role = .admin ∧ row.status = .active

def Db.otherActiveAdmins (db : Db) (user : UserId) : ℕ :=
  db.users.count fun id row => row.role = .admin ∧ row.status = .active ∧ id ≠ user

def RoleChange.gate (rc : RoleChange) (row : Option User) : Except IdentityError Unit := do
  ensure (rc.target ≠ rc.actor.userId) .permissionDenied
  let row ← orRefuse .notFound row
  ensure (row.role ≠ .student) .permissionDenied
  ensure (rc.newRole = .teacher ∨ rc.newRole = .admin) .validationError

/-- The service's own count, before the UPDATE. -/
def RoleChange.counted (rc : RoleChange) (db : Db) : Except IdentityError Unit :=
  ensure (rc.oldRole = .admin ∧ rc.newRole = .teacher → db.otherActiveAdmins rc.target ≠ 0)
    .conflict

def RoleChange.apply (rc : RoleChange) (db : Db) (row : User) : Db :=
  { db with users := db.users.put rc.target { row with role := rc.newRole } }.appendAudit
    ⟨rc.actor, .roleChanged, rc.target, none, some (.role rc.oldRole), some (.role rc.newRole),
      rc.context⟩

/-- `OLD.role = 'ADMIN' AND NEW.role <> 'ADMIN'`: the update that the trigger looks at. -/
def RoleChange.demotes (rc : RoleChange) (row : User) : Prop :=
  row.role = .admin ∧ rc.newRole ≠ .admin

/-- A request at work. `row` is always the target's row as read under its lock; `todo` are
the rows that the trigger has seen and not yet locked, and `held` the ones it has. -/
inductive GovernanceRequest
  | idle
  | loaded (rc : RoleChange)
  | locked (rc : RoleChange) (row : User)
  | counted (rc : RoleChange) (row : User)
  | trigger (rc : RoleChange) (row : User) (todo held : List UserId)
  | visiting (rc : RoleChange) (row : User) (visited : UserId) (todo held : List UserId)
  | ready (rc : RoleChange) (row : User) (held : List UserId)
  | governing (g : Governance) (todo held : List UserId)
  | judging (g : Governance) (target : UserId) (row : User) (todo held : List UserId)

namespace GovernanceRequest

def holds : GovernanceRequest → UserId → Prop
  | idle, _ => False
  | loaded _, _ => False
  | locked rc _, k => k = rc.target
  | counted rc _, k => k = rc.target
  | trigger rc _ _ held, k => k = rc.target ∨ k ∈ held
  | visiting rc _ visited _ held, k => k = rc.target ∨ k = visited ∨ k ∈ held
  | ready rc _ held, k => k = rc.target ∨ k ∈ held
  | governing _ _ held, k => k ∈ held
  | judging _ target _ _ held, k => k = target ∨ k ∈ held

def read : GovernanceRequest → Option (UserId × User)
  | idle => none
  | loaded _ => none
  | locked rc row => some (rc.target, row)
  | counted rc row => some (rc.target, row)
  | trigger rc row _ _ => some (rc.target, row)
  | visiting rc row _ _ _ => some (rc.target, row)
  | ready rc row _ => some (rc.target, row)
  | governing _ _ _ => none
  | judging _ target row _ _ => some (target, row)

end GovernanceRequest

inductive GovernanceEvent
  | refused
  | roleChanged (rc : RoleChange)
  | transitioned (g : Governance) (target : UserId)

open GovernanceRequest in
/-- The statements that read or lock. A refused row of a batch keeps its lock until the next
commit, and its session may judge a row that it has handled before on a stale copy. -/
inductive GovernanceRead : GovernanceRequest → Db → GovernanceRequest → Prop
  | load {db : Db} (rc : RoleChange) (row : User) (hget : db.users.get rc.target = some row)
      (hgate : rc.gate (some row) = .ok ()) (hold : rc.oldRole = row.role)
      (hnew : rc.oldRole ≠ rc.newRole) : GovernanceRead idle db (loaded rc)
  | lock {db : Db} (rc : RoleChange) (row : User) (hget : db.users.get rc.target = some row) :
      GovernanceRead (loaded rc) db (locked rc row)
  | count {db : Db} (rc : RoleChange) (row : User) (hcount : rc.counted db = .ok ()) :
      GovernanceRead (locked rc row) db (counted rc row)
  | update {db : Db} (rc : RoleChange) (row : User) (hrole : ¬ rc.demotes row) :
      GovernanceRead (counted rc row) db (ready rc row [])
  | perform {db : Db} (rc : RoleChange) (row : User) (todo : List UserId)
      (hrole : rc.demotes row)
      (htodo : ∀ id, id ∈ todo ↔ id ≠ rc.target ∧ ActiveAdmin db id) :
      GovernanceRead (counted rc row) db (trigger rc row todo [])
  | visit {db : Db} (rc : RoleChange) (row : User) (visited : UserId) (todo held : List UserId) :
      GovernanceRead (trigger rc row (visited :: todo) held) db
        (visiting rc row visited todo held)
  | keep {db : Db} (rc : RoleChange) (row : User) (visited : UserId) (todo held : List UserId)
      (hactive : ActiveAdmin db visited) :
      GovernanceRead (visiting rc row visited todo held) db
        (trigger rc row todo (visited :: held))
  | drop {db : Db} (rc : RoleChange) (row : User) (visited : UserId) (todo held : List UserId)
      (hactive : ¬ ActiveAdmin db visited) :
      GovernanceRead (visiting rc row visited todo held) db (trigger rc row todo held)
  | recount {db : Db} (rc : RoleChange) (row : User) (held : List UserId)
      (hcount : db.otherActiveAdmins rc.target ≠ 0) :
      GovernanceRead (trigger rc row [] held) db (ready rc row held)
  | begin {db : Db} (g : Governance) (todo : List UserId) (hgate : g.gate = .ok ())
      (hsingle : g.batch = false → todo.length = 1) :
      GovernanceRead idle db (governing g todo [])
  | skip {db : Db} (g : Governance) (target : UserId) (todo held : List UserId)
      (hskip : (g.batch = true ∧ target = g.actor.userId) ∨ db.users.get target = none) :
      GovernanceRead (governing g (target :: todo) held) db (governing g todo held)
  | judge {db : Db} (g : Governance) (target : UserId) (row : User) (todo held : List UserId)
      (hown : ¬ (g.batch = true ∧ target = g.actor.userId))
      (hget : db.users.get target = some row) :
      GovernanceRead (governing g (target :: todo) held) db (judging g target row todo held)
  | refuse {db : Db} (g : Governance) (target : UserId) (row : User) (todo held : List UserId)
      (hrefuse : g.batch = true ∨ g.operation.allowedFrom row.status = false) :
      GovernanceRead (judging g target row todo held) db (governing g todo (target :: held))
  | rollback {db : Db} (m : GovernanceRequest) : GovernanceRead m db idle

open GovernanceRequest in
inductive GovernanceCommit : GovernanceRequest → Db → GovernanceEvent → GovernanceRequest → Db →
    Prop
  | refused {db : Db} (m : GovernanceRequest) : GovernanceCommit m db .refused idle db
  | roleChanged {db : Db} (rc : RoleChange) (row : User) (held : List UserId) :
      GovernanceCommit (ready rc row held) db (.roleChanged rc) idle (rc.apply db row)
  | transitioned {db db' : Db} (g : Governance) (target : UserId) (row : User)
      (todo held : List UserId) (h : g.transition db target row = .ok db') :
      GovernanceCommit (judging g target row todo held) db (.transitioned g target)
        (governing g todo []) db'

def governanceProtocol : Protocol Db UserId GovernanceRequest GovernanceEvent where
  locks := GovernanceRequest.holds
  known m db := ∀ user row, m.read = some (user, row) → db.users.get user = some row
  start m := m = .idle
  read := GovernanceRead
  commit := GovernanceCommit

section Spec

variable {db db' : Db}

theorem transition_ok {g : Governance} {user : UserId} {row : User}
    (h : g.transition db user row = .ok db') :
    g.operation.allowedFrom row.status = true ∧
      db'.users = db.users.put user { row with status := g.operation.toStatus } := by
  unfold Governance.transition at h
  obtain ⟨hfrom, h⟩ := ensure_bind_ok.mp h
  obtain rfl := Except.ok.inj h
  exact ⟨hfrom, rfl⟩

/-- A positive count finds an administrator, and none without one. -/
theorem otherActiveAdmins_ne_zero {user : UserId} (h : db.otherActiveAdmins user ≠ 0) :
    ∃ id, id ≠ user ∧ ActiveAdmin db id := by
  by_contra hnone
  apply h
  apply Table.count_eq_zero
  intro id row hget hrow
  exact hnone ⟨id, hrow.2.2, row, hget, hrow.1, hrow.2.1⟩

theorem activeAdmin_congr {user : UserId} (h : db'.users.get user = db.users.get user) :
    ActiveAdmin db' user ↔ ActiveAdmin db user := by
  unfold ActiveAdmin
  rw [h]

end Spec

theorem governanceProtocol_sound : governanceProtocol.Sound fun _ => True := by
  constructor
  · rintro m k rfl hholds
    exact hholds
  · rintro m db rfl user row hread
    cases hread
  · intro m db m' hknown hread user row hrow
    cases hread with
    | load => cases hrow
    | lock rc row hget =>
      obtain ⟨rfl, rfl⟩ := Prod.mk.inj (Option.some.inj hrow)
      exact hget
    | count => exact hknown user row hrow
    | update => exact hknown user row hrow
    | perform => exact hknown user row hrow
    | visit => exact hknown user row hrow
    | keep => exact hknown user row hrow
    | drop => exact hknown user row hrow
    | recount => exact hknown user row hrow
    | begin => cases hrow
    | skip => cases hrow
    | judge g target row todo held hown hget =>
      obtain ⟨rfl, rfl⟩ := Prod.mk.inj (Option.some.inj hrow)
      exact hget
    | refuse => cases hrow
    | rollback => cases hrow
  · intro m db a m' db' _ _ _
    trivial
  · intro m db a m' db' _ _ hcommit user row hrow
    cases hcommit <;> cases hrow
  · intro m db a m' db' o _ _ hcommit hknown hdisjoint user row hrow
    have hget := hknown user row hrow
    have hheld : o.holds user := by
      cases o with
      | idle => cases hrow
      | loaded rc => cases hrow
      | governing g todo held => cases hrow
      | locked rc r => exact (Prod.mk.inj (Option.some.inj hrow)).1.symm
      | counted rc r => exact (Prod.mk.inj (Option.some.inj hrow)).1.symm
      | trigger rc r todo held => exact Or.inl (Prod.mk.inj (Option.some.inj hrow)).1.symm
      | visiting rc r visited todo held => exact Or.inl (Prod.mk.inj (Option.some.inj hrow)).1.symm
      | ready rc r held => exact Or.inl (Prod.mk.inj (Option.some.inj hrow)).1.symm
      | judging g target r todo held => exact Or.inl (Prod.mk.inj (Option.some.inj hrow)).1.symm
    cases hcommit with
    | refused => exact hget
    | roleChanged rc r held =>
      have hne : user ≠ rc.target := fun heq => hdisjoint rc.target (Or.inl rfl) (heq ▸ hheld)
      change (db.users.put rc.target { r with role := rc.newRole }).get user = some row
      rw [Table.get_put_of_ne _ _ hne, hget]
    | transitioned g target r todo held h =>
      have hne : user ≠ target := fun heq => hdisjoint target (Or.inl rfl) (heq ▸ hheld)
      rw [(transition_ok h).2, Table.get_put_of_ne _ _ hne, hget]

def governanceSystem (ι : Type*) [DecidableEq ι] :
    System (Config ι Db GovernanceRequest) (Move ι GovernanceEvent) :=
  governanceProtocol.system ι fun db => ∃ user, ActiveAdmin db user

end CampusQuest.Identity
