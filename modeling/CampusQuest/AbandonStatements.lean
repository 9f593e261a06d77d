import CampusQuest.Allocation
import CampusQuest.BusinessDay
import CampusQuest.Sessions

/-!
The statements of an abandon and what its row locks protect. The user row is locked first,
so it is the queue of all abandons of one user: while a session holds it, nobody else adds
to the abandoned claims of that user.
-/

namespace CampusQuest.Lifecycle.Abandoning

open Tables Transactions Guards WallClock

inductive LockKey
  | user (u : UserId)
  | claim (c : ClaimId)
  | assignment (a : AssignmentId)
  deriving DecidableEq

inductive Query
  | account (u : UserId)
  | claim (c : ClaimId)
  | assignment (a : AssignmentId)
  | abandons (u : UserId) (start stop : Instant)

abbrev Query.Answer : Query → Type
  | .account _ => Option Account
  | .claim _ => Option AssignmentClaim
  | .assignment _ => Option Assignment
  | .abandons _ _ _ => ℕ

def Query.answer : (q : Query) → Db → q.Answer
  | .account u, db => db.users.get u
  | .claim c, db => db.claims.get c
  | .assignment a, db => db.assignments.get a
  | .abandons u start stop, db => db.abandonsBetween u start stop

inductive Write
  | account (u : UserId) (row : Account)
  | claim (c : ClaimId) (row : AssignmentClaim)
  | assignment (a : AssignmentId) (row : Assignment)

def Write.apply : Write → Db → Db
  | .account u row, db => { db with users := db.users.put u row }
  | .claim c row, db => db.putClaim c row
  | .assignment a row, db => { db with assignments := db.assignments.put a row }

def Write.row : Write → LockKey
  | .account u _ => .user u
  | .claim c _ => .claim c
  | .assignment a _ => .assignment a

/-- No insert here can violate a unique key. -/
abbrev statements : Interface Db LockKey where
  Query := Query
  Answer := Query.Answer
  answer := Query.answer
  Write := Write
  apply := Write.apply
  row := Write.row
  taken _ _ := False
  decTaken _ _ := inferInstance

def abandonedAt (u : UserId) (claim : Option AssignmentClaim) : Option (Option Instant) :=
  claim.bind fun c => if c.userId = u ∧ c.status = .abandoned then some c.terminalAt else none

theorem abandonedAt_of_ne {u : UserId} {c : AssignmentClaim} (h : c.userId ≠ u) :
    abandonedAt u (some c) = none :=
  if_neg fun hboth => h hboth.1

theorem abandonedAt_of_status {u : UserId} {c : AssignmentClaim} (h : c.status ≠ .abandoned) :
    abandonedAt u (some c) = none :=
  if_neg fun hboth => h hboth.2

/-- What the locks in `L` protect: the rows themselves, and under a user's lock the abandons
of that user. -/
structure Agree (L : LockKey → Prop) (db db' : Db) : Prop where
  account : ∀ u, L (.user u) → db'.users.get u = db.users.get u
  claim : ∀ c, L (.claim c) → db'.claims.get c = db.claims.get c
  assignment : ∀ a, L (.assignment a) → db'.assignments.get a = db.assignments.get a
  abandons : ∀ u, L (.user u) → ∀ c,
    abandonedAt u (db'.claims.get c) = abandonedAt u (db.claims.get c)

def Query.Retained (L : LockKey → Prop) : (q : Query) → Db → q.Answer → Prop
  | .account u, db, a => L (.user u) → db.users.get u = a
  | .claim c, db, a => L (.claim c) → db.claims.get c = a
  | .assignment i, db, a => L (.assignment i) → db.assignments.get i = a
  | .abandons u start stop, db, a => L (.user u) → db.abandonsBetween u start stop = a

/-- A write that changes what a user has abandoned needs the lock of that user. -/
def Write.Guarded (L : LockKey → Prop) (db : Db) : Write → Prop
  | .claim c row => ∀ u, ¬ L (.user u) → abandonedAt u (some row) = abandonedAt u (db.claims.get c)
  | _ => True

def Covered (p : Pending statements) (db : Db) : Prop :=
  ∀ w ∈ p.writes, Write.Guarded (fun k => k ∈ p.locks) db w

theorem agree_mono {L L' : LockKey → Prop} {db db' : Db} (hL : ∀ k, L k → L' k)
    (h : Agree L' db db') : Agree L db db' where
  account u hu := h.account u (hL _ hu)
  claim c hc := h.claim c (hL _ hc)
  assignment a ha := h.assignment a (hL _ ha)
  abandons u hu := h.abandons u (hL _ hu)

theorem agree_apply {L : LockKey → Prop} {db db' : Db} (w : Write) (h : Agree L db db') :
    Agree L (w.apply db) (w.apply db') := by
  cases w with
  | account u row =>
    exact { h with account := fun v hv => Table.get_put_congr u row (h.account v hv) }
  | assignment a row =>
    exact { h with assignment := fun i hi => Table.get_put_congr a row (h.assignment i hi) }
  | claim c row =>
    refine { h with
      claim := fun i hi => Table.get_put_congr c row (h.claim i hi)
      abandons := ?_ }
    intro u hu i
    change abandonedAt u ((db'.claims.put c row).get i) = abandonedAt u ((db.claims.put c row).get i)
    rw [Table.get_put, Table.get_put]
    by_cases hi : i = c
    · rw [if_pos hi, if_pos hi]
    · rw [if_neg hi, if_neg hi]
      exact h.abandons u hu i

theorem view_account (p : Pending statements) (db : Db) (u : UserId) :
    (p.view db).users.get u = db.users.get u ∨ ∃ row, Write.account u row ∈ p.writes := by
  have hview := Pending.view_get (fun db : Db => db.users.get u) (Write.account u) (.user u) ?_ p db
  · rcases hview with h | ⟨row, hmem, _, _⟩
    · exact Or.inl h
    · exact Or.inr ⟨row, hmem⟩
  · intro w db
    cases w with
    | account v row =>
      rcases Table.get_put_cases db.users v u row with h | ⟨rfl, h⟩
      · exact Or.inl h
      · exact Or.inr ⟨row, rfl, rfl, h⟩
    | _ => exact Or.inl rfl

theorem view_claim (p : Pending statements) (db : Db) (c : ClaimId) :
    (p.view db).claims.get c = db.claims.get c ∨
      ∃ row, Write.claim c row ∈ p.writes ∧ (p.view db).claims.get c = some row := by
  have hview := Pending.view_get (fun db : Db => db.claims.get c) (Write.claim c) (.claim c) ?_ p db
  · rcases hview with h | ⟨row, hmem, _, hrow⟩
    · exact Or.inl h
    · exact Or.inr ⟨row, hmem, hrow⟩
  · intro w db
    cases w with
    | claim i row =>
      rcases Table.get_put_cases db.claims i c row with h | ⟨rfl, h⟩
      · exact Or.inl h
      · exact Or.inr ⟨row, rfl, rfl, h⟩
    | _ => exact Or.inl rfl

theorem view_assignment (p : Pending statements) (db : Db) (a : AssignmentId) :
    (p.view db).assignments.get a = db.assignments.get a ∨
      ∃ row, Write.assignment a row ∈ p.writes := by
  have hview := Pending.view_get (fun db : Db => db.assignments.get a) (Write.assignment a)
    (.assignment a) ?_ p db
  · rcases hview with h | ⟨row, hmem, _, _⟩
    · exact Or.inl h
    · exact Or.inr ⟨row, hmem⟩
  · intro w db
    cases w with
    | assignment i row =>
      rcases Table.get_put_cases db.assignments i a row with h | ⟨rfl, h⟩
      · exact Or.inl h
      · exact Or.inr ⟨row, rfl, rfl, h⟩
    | _ => exact Or.inl rfl

/-- A commit under the guarding locks leaves alone what every other lock protects. -/
theorem agree_commit {db : Db} (p : Pending statements) (hcovered : Covered p db)
    (hrows : ∀ w ∈ p.writes, Write.row w ∈ p.locks) :
    Agree (fun k => k ∉ p.locks) db (p.view db) where
  account u hu := by
    rcases view_account p db u with h | ⟨row, hmem⟩
    · exact h
    · exact absurd (hrows _ hmem) hu
  claim c hc := by
    rcases view_claim p db c with h | ⟨row, hmem, _⟩
    · exact h
    · exact absurd (hrows _ hmem) hc
  assignment a ha := by
    rcases view_assignment p db a with h | ⟨row, hmem⟩
    · exact h
    · exact absurd (hrows _ hmem) ha
  abandons u hu c := by
    rcases view_claim p db c with h | ⟨row, hmem, h⟩
    · rw [h]
    · rw [h]
      exact hcovered _ hmem u hu

/-- The abandons of a window are counted by the instants at which they happened. -/
theorem abandonsBetween_congr {db db' : Db} {u : UserId}
    (h : ∀ c, abandonedAt u (db'.claims.get c) = abandonedAt u (db.claims.get c))
    (start stop : Instant) :
    db'.abandonsBetween u start stop = db.abandonsBetween u start stop := by
  have hle : ∀ db db' : Db, (∀ c, abandonedAt u (db'.claims.get c) =
      abandonedAt u (db.claims.get c)) →
      db'.abandonsBetween u start stop ≤ db.abandonsBetween u start stop := by
    intro db db' h
    refine Table.count_le_of_get _ fun c row hrow hcounted => ?_
    obtain ⟨huser, hstatus, hwithin⟩ := hcounted
    have hnew : abandonedAt u (db'.claims.get c) = some row.terminalAt := by
      rw [hrow]
      exact if_pos ⟨huser, hstatus⟩
    rw [h] at hnew
    obtain ⟨row₀, hrow₀, hif⟩ := Option.bind_eq_some_iff.mp hnew
    split at hif
    next hboth =>
      refine ⟨row₀, hrow₀, hboth.1, hboth.2, ?_⟩
      rw [Option.some.inj hif]
      exact hwithin
    next => cases hif
  exact le_antisymm (hle db db' h) (hle db' db fun c => (h c).symm)

theorem retained_answer (L : LockKey → Prop) (q : Query) (db : Db) :
    q.Retained L db (q.answer db) := by
  cases q with
  | account u => exact fun _ => rfl
  | claim c => exact fun _ => rfl
  | assignment a => exact fun _ => rfl
  | abandons u start stop => exact fun _ => rfl

theorem retained_agree {L : LockKey → Prop} {db db' : Db} {q : Query} {a : q.Answer}
    (h : Agree L db db') (hret : q.Retained L db a) : q.Retained L db' a := by
  cases q with
  | account u => exact fun hu => (h.account u hu).trans (hret hu)
  | claim c => exact fun hc => (h.claim c hc).trans (hret hc)
  | assignment i => exact fun hi => (h.assignment i hi).trans (hret hi)
  | abandons u start stop =>
    intro hu
    exact (abandonsBetween_congr (h.abandons u hu) start stop).trans (hret hu)

def locking : Discipline statements where
  agree := Agree
  retained L _ := Query.Retained L
  covered := Covered
  agree_mono := agree_mono
  agree_apply := agree_apply
  agree_commit := agree_commit
  retained_answer L _ q db _ := retained_answer L q db
  retained_agree := retained_agree
  taken_apply _ h := h
  taken_agree _ h := h
  free_agree _ _ h := h

abbrev AbandonTxn (α : Type) := Txn statements LifecycleError α

def ask (q : Query) : AbandonTxn q.Answer := .ask q .done

def lock (k : LockKey) : AbandonTxn Unit := .lock k (.done ())

def write (w : Write) : AbandonTxn Unit := .write w (.done ())

def refuse {α : Type} (e : LifecycleError) : AbandonTxn α := .raise e

/-- Only OCCUPIED flips back to AVAILABLE, on the locked row. -/
def releaseAssignment (a : AssignmentId) : AbandonTxn Unit := do
  lock (.assignment a)
  match ← ask (.assignment a) with
  | some row =>
    if row.availabilityStatus = .occupied then
      write (.assignment a { row with availabilityStatus := .available })
    else return ()
  | none => return ()

/-- `abandon_claim`, statement by statement: user row, claim row, daily count, assignment row.
`now` is what the clock shows once the first two locks are held; nothing relates it to the
instants of other calls. -/
def abandonStatements (zone : Zone) (limit : ℕ) (now : Instant) (user : UserId) (id : ClaimId) :
    AbandonTxn AssignmentClaim := do
  lock (.user user)
  match ← ask (.account user) with
  | none => refuse (.userNotFound user)
  | some account =>
    if account.role ≠ .student then refuse (.claimerNotStudent user account.role)
    else if account.status ≠ .active then refuse (.accountNotActive user)
    else do
      lock (.claim id)
      match ← ask (.claim id) with
      | none => refuse (.claimNotFound id)
      | some claim =>
        if claim.userId ≠ user then refuse (.claimNotOwned id user)
        else if claim.status = .abandoned then return claim
        else if claim.status.abandonable = false then refuse (.claimNotAbandonable claim.status)
        else do
          let window := businessDayWindow zone now
          let used ← ask (.abandons user window.1 window.2)
          if limit ≤ used then refuse (.abandonLimitReached limit window.1 window.2)
          else do
            releaseAssignment claim.assignmentId
            write (.claim id (claim.terminate .abandoned now))
            return claim.terminate .abandoned now

end CampusQuest.Lifecycle.Abandoning
