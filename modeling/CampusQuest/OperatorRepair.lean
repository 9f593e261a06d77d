import CampusQuest.BulkStatements
import CampusQuest.Locking
import CampusQuest.Occupancy

/-!
The repair of an assignment that is OCCUPIED with nobody working on it. The command locks the
assignment, and then judges its claims, which it does not lock, one statement after the other. It
goes by the newest claim, and a claim reads its clock before it locks its assignment.
-/

namespace CampusQuest.Repairs

open Guards Lifecycle Locking Runs Tables

/-! ### The command -/

inductive Why
  | notOccupied
  | activeClaimExists
  | claimStatusNotReleaseTerminal
  deriving DecidableEq

inductive RepairError
  | permissionDenied
  | reasonRequired
  | targetNotFound (targetId : AssignmentId)
  | notDangling (availability : AssignmentAvailability) (claimStatus : Option ClaimStatus)
      (why : Why)
  deriving DecidableEq

namespace RepairError

def code : RepairError → ErrorCode
  | permissionDenied => .permissionDenied
  | targetNotFound _ => .notFound
  | reasonRequired | notDangling _ _ _ => .validationError

def statusCode : RepairError → ℕ
  | permissionDenied => 403
  | reasonRequired => 400
  | targetNotFound _ => 404
  | notDangling _ _ _ => 409

def message : RepairError → String
  | permissionDenied => "仅管理员可以执行状态修复"
  | reasonRequired => "必须填写操作原因"
  | targetNotFound _ => "修复目标不存在"
  | notDangling _ _ _ => "该任务占用量不是悬挂状态，无需修复"

end RepairError

structure ReleaseCall where
  actor : Actor
  assignmentId : AssignmentId
  reason : Text

/-- A row of `STATE_REPAIR_RELEASED_ASSIGNMENT`; the details name the newest claim. -/
structure RepairAudit where
  actor : Actor
  targetId : AssignmentId
  reason : Text
  before : AssignmentAvailability
  after : AssignmentAvailability
  claim : Option (ClaimId × ClaimStatus)
  taskId : TaskId

/-- The claim lifecycle, with the audit rows of the command, newest last. -/
structure Site where
  state : State
  audit : List RepairAudit

abbrev Site.db (site : Site) : Db := site.state.db

section Statements

variable (db : Db) (a : AssignmentId)

def requireOccupied (call : ReleaseCall) : Except RepairError Assignment := do
  ensure (isAdmin call.actor.role = true) .permissionDenied
  ensure (strip call.reason ≠ []) .reasonRequired
  let row ← orRefuse (.targetNotFound call.assignmentId) (db.assignments.get call.assignmentId)
  ensure (row.availabilityStatus = .occupied)
    (.notDangling row.availabilityStatus none .notOccupied)
  return row

def requireUnbacked : Except RepairError Unit :=
  match db.claims.find fun _ c => c.assignmentId = a ∧ c.status.active = true with
  | some (_, c) => .error (.notDangling .occupied (some c.status) .activeClaimExists)
  | none => .ok ()

/-- `order_by(claimed_at.desc(), id.desc()).limit(1)`. -/
def newestClaim : Option (ClaimId × AssignmentClaim) :=
  (db.claims.scan (fun _ c => c.assignmentId = a) (·.claimedAt)).getLast?

/-- The second one; `_RELEASE_TERMINAL_CLAIM_STATUSES` are the statuses of a returned claim. -/
def newestReleasable : Except RepairError (Option (ClaimId × AssignmentClaim)) :=
  match newestClaim db a with
  | none => .ok none
  | some (k, c) =>
    if c.status.reassignExcluded = true then .ok (some (k, c))
    else .error (.notDangling .occupied (some c.status) .claimStatusNotReleaseTerminal)

end Statements

namespace Site

variable (site : Site)

def released (call : ReleaseCall) (row : Assignment) (newest : Option (ClaimId × AssignmentClaim)) :
    Site where
  state := { site.state with db := site.db.setAvailability call.assignmentId row .available }
  audit := site.audit ++ [⟨call.actor, call.assignmentId, call.reason, .occupied, .available,
    newest.map fun e => (e.1, e.2.status), row.taskId⟩]

def release (call : ReleaseCall) : Except RepairError Site := do
  let row ← requireOccupied site.db call
  requireUnbacked site.db call.assignmentId
  let newest ← newestReleasable site.db call.assignmentId
  return site.released call row newest

def releaseAll (actor : Actor) (reason : Text) (ids : List AssignmentId) : Site :=
  ids.foldl (fun site a =>
    match site.release ⟨actor, a, reason⟩ with
    | .ok site' => site'
    | .error _ => site) site

end Site

/-! ### Transactions side by side -/

inductive Job
  | op (op : Op)
  | claim (user : UserId) (task : TaskId) (id : ClaimId)
  | occupy (a : AssignmentId)
  | release (call : ReleaseCall)

inductive Worker
  | called (job : Job)
  | holding (op : Op) (a : AssignmentId)
  | sampled (user : UserId) (task : TaskId) (id : ClaimId) (claimedAt : Instant)
  | claiming (user : UserId) (task : TaskId) (id : ClaimId) (claimedAt : Instant)
      (a : AssignmentId)
  | occupying (a : AssignmentId)
  | locked (call : ReleaseCall) (row : Assignment)
  | judged (call : ReleaseCall) (row : Assignment)
  | cleared (call : ReleaseCall) (row : Assignment) (newest : Option (ClaimId × AssignmentClaim))
  | refused (call : ReleaseCall) (e : RepairError)
  | done

def Worker.Locks : Worker → AssignmentId → Prop
  | called _, _ | sampled _ _ _ _, _ | refused _ _, _ | done, _ => False
  | holding _ a', a | claiming _ _ _ _ a', a | occupying a', a => a' = a
  | locked call _, a | judged call _, a | cleared call _ _, a => call.assignmentId = a

/-- A statement before the commit. A claim reads its clock and then locks its candidate. -/
inductive Read : Worker → Site → Worker → Prop
  | hold (op : Op) (a : AssignmentId) (site : Site) : Read (.called (.op op)) site (.holding op a)
  | sample (user : UserId) (task : TaskId) (id : ClaimId) (site : Site) :
      Read (.called (.claim user task id)) site (.sampled user task id site.state.now)
  | candidate (user : UserId) (task : TaskId) (id : ClaimId) (claimedAt : Instant)
      (a : AssignmentId) (site : Site) :
      Read (.sampled user task id claimedAt) site (.claiming user task id claimedAt a)
  | occupy (a : AssignmentId) (site : Site) : Read (.called (.occupy a)) site (.occupying a)
  | lock (call : ReleaseCall) (row : Assignment) (site : Site)
      (h : requireOccupied site.db call = .ok row) :
      Read (.called (.release call)) site (.locked call row)
  | lockRefused (call : ReleaseCall) (e : RepairError) (site : Site)
      (h : requireOccupied site.db call = .error e) :
      Read (.called (.release call)) site (.refused call e)
  | judge (call : ReleaseCall) (row : Assignment) (site : Site)
      (h : requireUnbacked site.db call.assignmentId = .ok ()) :
      Read (.locked call row) site (.judged call row)
  | judgeRefused (call : ReleaseCall) (row : Assignment) (e : RepairError) (site : Site)
      (h : requireUnbacked site.db call.assignmentId = .error e) :
      Read (.locked call row) site (.refused call e)
  | clear (call : ReleaseCall) (row : Assignment) (newest : Option (ClaimId × AssignmentClaim))
      (site : Site) (h : newestReleasable site.db call.assignmentId = .ok newest) :
      Read (.judged call row) site (.cleared call row newest)
  | clearRefused (call : ReleaseCall) (row : Assignment) (e : RepairError) (site : Site)
      (h : newestReleasable site.db call.assignmentId = .error e) :
      Read (.judged call row) site (.refused call e)

/-- The assignment whose row an operation locks: that of the claim that it ends. -/
def touched (db : Db) : Op → Option AssignmentId
  | .expire id _ | .abandon _ _ _ id => (db.claims.get id).map (·.assignmentId)
  | .approve _ id => (db.submissions.get id).bind fun row =>
      (db.claims.get row.claimId).map (·.assignmentId)
  | _ => none

inductive Deed
  | op (op : Op)
  | claim (id : ClaimId) (claimedAt : Instant) (a : AssignmentId)
  | occupy (a : AssignmentId)
  | release (call : ReleaseCall)

/-- Claims go statement by statement, the other operations of the lifecycle as they are. An
assignment is set to OCCUPIED by hand at any time. -/
inductive Commit : Worker → Site → Deed → Worker → Site → Prop
  | free (op : Op) (site : Site) (hop : ∀ user task id choice, op ≠ .claim user task id choice)
      (htouched : touched site.db op = none) :
      Commit (.called (.op op)) site (.op op) .done ⟨site.state.apply op, site.audit⟩
  | held (op : Op) (a : AssignmentId) (site : Site)
      (hop : ∀ user task id choice, op ≠ .claim user task id choice)
      (htouched : touched site.db op = some a) :
      Commit (.holding op a) site (.op op) .done ⟨site.state.apply op, site.audit⟩
  | claim (user : UserId) (task : TaskId) (id : ClaimId) (claimedAt : Instant) (a : AssignmentId)
      (site : Site) (claim : AssignmentClaim) (db : Db)
      (h : claimRandomAssignment site.db claimedAt user task id (some a) = .ok (claim, db)) :
      Commit (.claiming user task id claimedAt a) site (.claim id claimedAt a) .done
        ⟨{ site.state with db }, site.audit⟩
  | occupy (a : AssignmentId) (row : Assignment) (site : Site)
      (hrow : site.db.assignments.get a = some row) :
      Commit (.occupying a) site (.occupy a) .done
        ⟨{ site.state with db := site.db.setAvailability a row .occupied }, site.audit⟩
  | release (call : ReleaseCall) (row : Assignment)
      (newest : Option (ClaimId × AssignmentClaim)) (site : Site) :
      Commit (.cleared call row newest) site (.release call) .done
        (site.released call row newest)

def Worker.Known (site : Site) : Worker → Prop
  | locked call row => requireOccupied site.db call = .ok row
  | judged call row => requireOccupied site.db call = .ok row ∧
      requireUnbacked site.db call.assignmentId = .ok ()
  | cleared call row newest => requireOccupied site.db call = .ok row ∧
      requireUnbacked site.db call.assignmentId = .ok () ∧
      newestReleasable site.db call.assignmentId = .ok newest
  | _ => True

def repairProtocol : Protocol Site AssignmentId Worker Deed where
  locks := Worker.Locks
  known worker site := worker.Known site
  start worker := ∃ job, worker = .called job
  read := Read
  commit := Commit

structure Site.Opening (site : Site) : Prop where
  lifecycle : Initial site.state
  audit : site.audit = []

/-! ### The statements about the claims -/

/-- One claim stands before another in the order of the command. -/
def Earlier (x y : ClaimId × AssignmentClaim) : Prop :=
  x.2.claimedAt < y.2.claimedAt ∨ x.2.claimedAt = y.2.claimedAt ∧ x.1 < y.1

theorem Earlier.asymm {x y : ClaimId × AssignmentClaim} (h : Earlier x y) : ¬ Earlier y x := by
  rintro (h' | ⟨heq', h'⟩)
  · rcases h with h | ⟨heq, _⟩
    · exact lt_asymm h h'
    · exact absurd heq (ne_of_gt h')
  · rcases h with h | ⟨_, h⟩
    · exact absurd heq' (ne_of_gt h)
    · exact lt_asymm h h'

section Judgement

variable {db db' : Db} {a : AssignmentId} {k : ClaimId} {c : AssignmentClaim} {u : Unit}

theorem requireUnbacked_ok : requireUnbacked db a = .ok u ↔
    ∀ k c, db.claims.get k = some c → c.assignmentId = a → c.status.active = false := by
  unfold requireUnbacked
  constructor
  · intro h k c hc ha
    split at h
    next => cases h
    next hnone =>
      rw [← Bool.not_eq_true]
      exact fun hactive => Table.find_none hnone hc ⟨ha, hactive⟩
  · intro h
    have hnone : db.claims.find (fun _ c => c.assignmentId = a ∧ c.status.active = true) =
        none := by
      refine Table.find_eq_none fun k c hc hbacked => ?_
      rw [h k c hc hbacked.1] at hbacked
      exact absurd hbacked.2 Bool.false_ne_true
    rw [hnone]

/-- The newest claim of an assignment is one of its claims, and every other one is earlier. -/
theorem newestClaim_some (h : newestClaim db a = some (k, c)) :
    db.claims.get k = some c ∧ c.assignmentId = a ∧
      ∀ k' c', db.claims.get k' = some c' → c'.assignmentId = a → k' ≠ k →
        Earlier (k', c') (k, c) := by
  obtain ⟨hget, ha⟩ := Table.mem_scan.mp (List.mem_of_getLast? h)
  refine ⟨hget, ha, fun k' c' hget' ha' hne => ?_⟩
  have hmem : (k', c') ∈ db.claims.scan (fun _ c => c.assignmentId = a) (·.claimedAt) :=
    Table.mem_scan.mpr ⟨hget', ha'⟩
  have hpairs : (db.claims.scan (fun _ c => c.assignmentId = a) (·.claimedAt)).Pairwise Earlier :=
    Table.scan_pairwise
  obtain ⟨front, hfront⟩ := List.getLast?_eq_some_iff.mp h
  rw [hfront] at hmem hpairs
  rcases List.mem_append.mp hmem with hmem | hmem
  · exact (List.pairwise_append.mp hpairs).2.2 _ hmem _ (List.mem_singleton_self _)
  · exact absurd (congrArg Prod.fst (List.mem_singleton.mp hmem)) hne

theorem newestClaim_none (h : newestClaim db a = none) (hget : db.claims.get k = some c) :
    c.assignmentId ≠ a := by
  intro ha
  have hmem : (k, c) ∈ db.claims.scan (fun _ c => c.assignmentId = a) (·.claimedAt) :=
    Table.mem_scan.mpr ⟨hget, ha⟩
  rw [List.getLast?_eq_none_iff.mp h] at hmem
  cases hmem

theorem newestClaim_eq (hget : db.claims.get k = some c) (ha : c.assignmentId = a)
    (hlast : ∀ k' c', db.claims.get k' = some c' → c'.assignmentId = a → k' ≠ k →
      Earlier (k', c') (k, c)) : newestClaim db a = some (k, c) := by
  cases hnewest : newestClaim db a with
  | none => exact absurd ha (newestClaim_none hnewest hget)
  | some e =>
    obtain ⟨k₀, c₀⟩ := e
    obtain ⟨hget₀, ha₀, hlast₀⟩ := newestClaim_some hnewest
    by_cases hk : k₀ = k
    · obtain rfl := hk
      rw [Option.some.inj (hget₀.symm.trans hget)]
    · exact absurd (hlast k₀ c₀ hget₀ ha₀ hk) (hlast₀ k c hget ha (Ne.symm hk)).asymm

theorem newestClaim_congr (h : ∀ k c, c.assignmentId = a →
    (db'.claims.get k = some c ↔ db.claims.get k = some c)) :
    newestClaim db' a = newestClaim db a := by
  have hirrefl : Std.Irrefl Earlier := ⟨fun x h => h.asymm h⟩
  have hanti : Std.Antisymm Earlier := ⟨fun x y h h' => absurd h' h.asymm⟩
  unfold newestClaim
  refine congrArg List.getLast? (List.Pairwise.eq_of_mem_iff (r := Earlier) Table.scan_pairwise
    Table.scan_pairwise fun e => ?_)
  rw [Table.mem_scan, Table.mem_scan]
  exact and_congr_left fun ha => h e.1 e.2 ha

theorem newestReleasable_ok {newest : Option (ClaimId × AssignmentClaim)} :
    newestReleasable db a = .ok newest ↔ newestClaim db a = newest ∧
      ∀ k c, newest = some (k, c) → c.status.reassignExcluded = true := by
  unfold newestReleasable
  split
  next hnone =>
    constructor
    · intro h
      obtain rfl := Except.ok.inj h
      exact ⟨hnone, fun _ _ h => (by cases h)⟩
    · rintro ⟨h, _⟩
      rw [← h, hnone]
  next k c hsome =>
    split
    next hexcluded =>
      constructor
      · intro h
        obtain rfl := Except.ok.inj h
        refine ⟨hsome, fun k' c' h => ?_⟩
        obtain ⟨_, rfl⟩ := Prod.mk.inj (Option.some.inj h)
        exact hexcluded
      · rintro ⟨h, _⟩
        rw [← h, hsome]
    next hexcluded =>
      constructor
      · intro h
        cases h
      · rintro ⟨h, hall⟩
        rw [hsome] at h
        exact absurd (hall k c h.symm) hexcluded

theorem requireOccupied_ok {call : ReleaseCall} {row : Assignment} :
    requireOccupied db call = .ok row ↔ isAdmin call.actor.role = true ∧ strip call.reason ≠ [] ∧
      db.assignments.get call.assignmentId = some row ∧ row.availabilityStatus = .occupied := by
  unfold requireOccupied
  rw [ensure_bind_ok, ensure_bind_ok]
  refine and_congr_right fun _ => and_congr_right fun _ => ?_
  rw [orRefuse_bind_ok]
  constructor
  · rintro ⟨row', hrow, h⟩
    obtain ⟨hoccupied, h⟩ := ensure_bind_ok.mp h
    obtain rfl := Except.ok.inj h
    exact ⟨hrow, hoccupied⟩
  · rintro ⟨hrow, hoccupied⟩
    exact ⟨row, hrow, ensure_bind_ok.mpr ⟨hoccupied, rfl⟩⟩

end Judgement

/-! ### What one transaction does -/

section Turns

variable {s : State} {op : Op} {db : Db} {a b : AssignmentId} {k : ClaimId}
  {c c' : AssignmentClaim} {row row' : Assignment} {status : AssignmentAvailability}

theorem live_of_active {x : ClaimStatus} (h : x.active = true) : x.reassignExcluded = false := by
  cases x <;> simp_all [ClaimStatus.active, ClaimStatus.reassignExcluded]

/-- The same claim, as far as the command orders it, and ended claims stay as they are. -/
structure Kept (c c' : AssignmentClaim) : Prop where
  assignmentId : c'.assignmentId = c.assignmentId
  claimedAt : c'.claimedAt = c.claimedAt
  ended : c' = c ∨ c.status.active = true

/-- A claim that was given back is not taken again. -/
theorem Kept.live (h : Kept c c') (hlive : c'.status.reassignExcluded = false) :
    c.status.reassignExcluded = false := by
  rcases h.ended with rfl | hactive
  · exact hlive
  · exact live_of_active hactive

theorem op_kept (s : State) (op : Op) (hget : s.db.claims.get k = some c) :
    ∃ c', (s.apply op).db.claims.get k = some c' ∧ Kept c c' := by
  obtain ⟨c', hget', hmove⟩ := (apply_effect s op).claim_move hget
  exact ⟨c', hget', hmove.sameClaim.assignmentId, hmove.instants.1, hmove.active⟩

theorem op_old (hop : ∀ user task id choice, op ≠ .claim user task id choice)
    (hget' : (s.apply op).db.claims.get k = some c') :
    ∃ c, s.db.claims.get k = some c ∧ Kept c c' := by
  cases hget : s.db.claims.get k with
  | none =>
    have hmade := (apply_effect s op).claim_made hget hget'
    cases hmade with
    | claimed user task id choice => exact absurd rfl (hop user task _ choice)
  | some c =>
    obtain ⟨c₁, hget₁, hkept⟩ := op_kept s op hget
    obtain rfl := Option.some.inj (hget'.symm.trans hget₁)
    exact ⟨c, rfl, hkept⟩

theorem leaveOccupied_of_ne (hne : b ≠ a) :
    (db.leaveOccupied a status).assignments.get b = db.assignments.get b := by
  unfold Db.leaveOccupied Db.setAvailability
  split
  next =>
    split
    · exact Table.get_put_of_ne _ _ hne
    · rfl
  next => rfl

theorem leaveOccupied_row (h : (db.leaveOccupied a status).assignments.get b = some row') :
    db.assignments.get b = some row' ∨ b = a ∧ row'.availabilityStatus = status := by
  unfold Db.leaveOccupied Db.setAvailability at h
  split at h
  next =>
    split at h
    · rcases Table.get_put_eq_some h with ⟨hb, rfl⟩ | ⟨_, hold⟩
      · exact .inr ⟨hb, rfl⟩
      · exact .inl hold
    · exact .inl h
  next => exact .inl h

/-- What an operation makes of a row, a claim of a student apart: it stays, it is new, it is
finished, or the claim on it was given back. -/
theorem op_row (hop : ∀ user task id choice, op ≠ .claim user task id choice)
    (hrow' : (s.apply op).db.assignments.get a = some row') :
    s.db.assignments.get a = some row' ∨ s.db.assignments.get a = none ∨
      row'.availabilityStatus = .completed ∨
      ∃ k c c', s.db.claims.get k = some c ∧ c.assignmentId = a ∧ c.status.active = true ∧
        (s.apply op).db.claims.get k = some c' ∧ c'.status.reassignExcluded = true := by
  have heffect := apply_effect s op
  generalize (s.apply op).db = db' at heffect hrow' ⊢
  cases heffect with
  | core _ hcore =>
    rw [hcore.assignments] at hrow'
    exact .inl hrow'
  | imported id task hfresh =>
    rcases Table.get_put_eq_some hrow' with ⟨rfl, _⟩ | ⟨_, hold⟩
    · exact .inr (.inl hfresh)
    · exact .inl hold
  | claimed user task id choice => exact absurd rfl (hop user task id choice)
  | ended _ k c status t _ hclaim hactionable hstatus =>
    have hrow' : (s.db.leaveOccupied c.assignmentId .available).assignments.get a = some row' :=
      hrow'
    rcases leaveOccupied_row hrow' with hold | ⟨rfl, _⟩
    · exact .inl hold
    · exact .inr (.inr (.inr ⟨k, c, c.terminate status t, hclaim, rfl,
        ClaimStatus.active_of_actionable hactionable, Table.get_put_self _ _ _, hstatus⟩))
  | approved actor id sub c =>
    have hrow' : (s.db.leaveOccupied c.assignmentId .completed).assignments.get a = some row' :=
      hrow'
    rcases leaveOccupied_row hrow' with hold | ⟨_, hcompleted⟩
    · exact .inl hold
    · exact .inr (.inr (.inl hcompleted))
  | cleaned | intentCleaned | intentMade | intentBurned | finalized | started | startedMoving
    | finished | finishedRestoring | locked | returned | invalidated => exact .inl hrow'

theorem put_stays {t : Table AssignmentId Assignment} (h : t.get b ≠ none) :
    (t.put a row).get b ≠ none := by
  rw [Table.get_put]
  split
  · exact Option.some_ne_none row
  · exact h

theorem leaveOccupied_stays (h : db.assignments.get b ≠ none) :
    (db.leaveOccupied a status).assignments.get b ≠ none := by
  unfold Db.leaveOccupied Db.setAvailability
  split
  next =>
    split
    · exact put_stays h
    · exact h
  next => exact h

theorem op_stays (s : State) (op : Op) (h : s.db.assignments.get a ≠ none) :
    (s.apply op).db.assignments.get a ≠ none := by
  have heffect := apply_effect s op
  generalize (s.apply op).db = db' at heffect ⊢
  cases heffect with
  | core _ hcore =>
    rw [hcore.assignments]
    exact h
  | imported | claimed => exact put_stays h
  | ended | approved => exact leaveOccupied_stays h
  | cleaned | intentCleaned | intentMade | intentBurned | finalized | started | startedMoving
    | finished | finishedRestoring | locked | returned | invalidated => exact h

/-- A row that an operation does not lock stays as it is. -/
theorem op_untouched (hop : ∀ user task id choice, op ≠ .claim user task id choice)
    (htouched : touched s.db op ≠ some a) (hrow : s.db.assignments.get a = some row) :
    (s.apply op).db.assignments.get a = some row := by
  have hends : op.ends = true → (s.apply op).db.assignments.get a = some row := by
    intro hends
    cases op with
    | expire id now =>
      change (expireClaimIfDue s.db id now).2.assignments.get a = some row
      rcases expireClaimIfDue_cases s.db id now with h | ⟨claim, hclaim, _, h⟩
      · rw [h]
        exact hrow
      · rw [h]
        have hne : a ≠ claim.assignmentId := by
          rintro rfl
          exact htouched (by rw [touched, hclaim, Option.map_some])
        exact (leaveOccupied_of_ne hne).trans hrow
    | abandon day limit user id =>
      change (s.commit (abandonClaim s.db s.now day limit user id)).db.assignments.get a = some row
      cases h : abandonClaim s.db s.now day limit user id with
      | error e => exact hrow
      | ok result =>
        obtain ⟨_, db'⟩ := result
        change db'.assignments.get a = some row
        rcases abandonClaim_ok h with rfl | ⟨claim, hclaim, _, _, _, rfl⟩
        · exact hrow
        · have hne : a ≠ claim.assignmentId := by
            rintro rfl
            exact htouched (by rw [touched, hclaim, Option.map_some])
          exact (leaveOccupied_of_ne hne).trans hrow
    | _ => cases hends
  have heffect := apply_effect s op
  generalize (s.apply op).db = db' at heffect hends ⊢
  cases heffect with
  | core _ hcore =>
    rw [hcore.assignments]
    exact hrow
  | imported id task hfresh => exact Table.get_put_of_fresh hfresh hrow
  | claimed user task id choice => exact absurd rfl (hop user task id choice)
  | ended _ _ _ _ _ h => exact hends h
  | approved actor id sub c rows paid hreviewable =>
    have hne : a ≠ c.assignmentId := by
      rintro rfl
      apply htouched
      rw [touched, hreviewable.found, Option.bind_some, hreviewable.held, Option.map_some]
    exact (leaveOccupied_of_ne hne).trans hrow
  | cleaned | intentCleaned | intentMade | intentBurned | finalized | started | startedMoving
    | finished | finishedRestoring | locked | returned | invalidated => exact hrow

end Turns

/-- What the command has read about an assignment is still so: its row is the same, and without
an active claim its claims are. -/
structure Undisturbed (a : AssignmentId) (db db' : Db) : Prop where
  row : ∀ row, db.assignments.get a = some row → db'.assignments.get a = some row
  claims : (∀ k c, db.claims.get k = some c → c.assignmentId = a → c.status.active = false) →
    ∀ k c, c.assignmentId = a → (db'.claims.get k = some c ↔ db.claims.get k = some c)

section Reads

variable {site site' : Site} {worker worker' other : Worker} {deed : Deed} {a : AssignmentId}

theorem op_undisturbed {s : State} {op : Op}
    (hop : ∀ user task id choice, op ≠ .claim user task id choice)
    (htouched : touched s.db op ≠ some a) : Undisturbed a s.db (s.apply op).db := by
  refine ⟨fun row => op_untouched hop htouched, fun hinactive k c ha => ⟨fun h => ?_, fun h => ?_⟩⟩
  · obtain ⟨c₀, h₀, hkept⟩ := op_old hop h
    rcases hkept.ended with rfl | hactive
    · exact h₀
    · rw [hinactive k c₀ h₀ (hkept.assignmentId.symm.trans ha)] at hactive
      cases hactive
  · obtain ⟨c', h', hkept⟩ := op_kept s op h
    rcases hkept.ended with rfl | hactive
    · exact h'
    · rw [hinactive k c h ha] at hactive
      cases hactive

/-- A committed claim takes the available assignment that it has locked. -/
theorem claim_taken {db db' : Db} {t : Instant} {user : UserId} {task : TaskId} {id : ClaimId}
    {claim : AssignmentClaim}
    (h : claimRandomAssignment db t user task id (some a) = .ok (claim, db')) :
    ∃ row, db.assignments.get a = some row ∧ row.availabilityStatus = .available ∧
      db.claims.get id = none ∧ claim.assignmentId = a ∧ claim.claimedAt = t ∧
      claim.status = .claimed ∧ db' = (db.setAvailability a row .occupied).putClaim id claim := by
  unfold claimRandomAssignment at h
  obtain ⟨_, _, h⟩ := bind_ok.mp h
  obtain ⟨_, _, h⟩ := orRefuse_bind_ok.mp h
  obtain ⟨_, _, h⟩ := bind_ok.mp h
  obtain ⟨_, h⟩ := ensure_bind_ok.mp h
  obtain ⟨_, h⟩ := ensure_bind_ok.mp h
  obtain ⟨a', ha', h⟩ := orRefuse_bind_ok.mp h
  obtain rfl := Option.some.inj ha'
  obtain ⟨row, hrow, h⟩ := orRefuse_bind_ok.mp h
  obtain ⟨_, _, h⟩ := bind_ok.mp h
  obtain ⟨_, h⟩ := ensure_bind_ok.mp h
  obtain ⟨hfresh, h⟩ := ensure_bind_ok.mp h
  obtain ⟨hget, _, havailable, _⟩ := candidate_eq_some.mp hrow
  cases h
  exact ⟨row, hget, havailable, hfresh, rfl, rfl, rfl, rfl⟩

theorem setAvailability_undisturbed {db : Db} {b : AssignmentId} (row : Assignment)
    (status : AssignmentAvailability) (hne : a ≠ b) :
    Undisturbed a db (db.setAvailability b row status) :=
  ⟨fun _ h => (Table.get_put_of_ne _ _ hne).trans h, fun _ _ _ _ => Iff.rfl⟩

/-- A commit leaves alone what is read about the assignments that it does not lock. -/
theorem commit_undisturbed (h : Commit worker site deed worker' site') (hlock : ¬ worker.Locks a) :
    Undisturbed a site.db site'.db := by
  cases h with
  | free op _ hop htouched => exact op_undisturbed hop (by rw [htouched]; exact fun h => by cases h)
  | held op b _ hop htouched =>
    refine op_undisturbed hop ?_
    rw [htouched]
    exact fun h => hlock (Option.some.inj h)
  | claim user task id t b _ claim db h =>
    obtain ⟨row, _, _, hfresh, hb, _, _, rfl⟩ := claim_taken h
    have hset : Undisturbed a site.db (site.db.setAvailability b row .occupied) :=
      setAvailability_undisturbed row _ (Ne.symm hlock)
    refine ⟨hset.row, fun _ k c ha => ⟨fun h => ?_, Table.get_put_of_fresh hfresh⟩⟩
    rcases Table.get_put_eq_some h with ⟨rfl, rfl⟩ | ⟨_, hold⟩
    · exact absurd (hb.symm.trans ha) hlock
    · exact hold
  | occupy b row => exact setAvailability_undisturbed row _ (Ne.symm hlock)
  | release call row newest => exact setAvailability_undisturbed row _ (Ne.symm hlock)

theorem Undisturbed.occupied {db db' : Db} {call : ReleaseCall} {row : Assignment}
    (h : Undisturbed call.assignmentId db db') (hok : requireOccupied db call = .ok row) :
    requireOccupied db' call = .ok row := by
  obtain ⟨hadmin, hreason, hrow, hoccupied⟩ := requireOccupied_ok.mp hok
  exact requireOccupied_ok.mpr ⟨hadmin, hreason, h.row row hrow, hoccupied⟩

theorem Undisturbed.unbacked {db db' : Db} (h : Undisturbed a db db')
    (hok : requireUnbacked db a = .ok ()) : requireUnbacked db' a = .ok () := by
  have hinactive := requireUnbacked_ok.mp hok
  refine requireUnbacked_ok.mpr fun k c hc ha => ?_
  exact hinactive k c ((h.claims hinactive k c ha).mp hc) ha

theorem Undisturbed.newest {db db' : Db} (h : Undisturbed a db db')
    (hok : requireUnbacked db a = .ok ()) : newestReleasable db' a = newestReleasable db a := by
  unfold newestReleasable
  rw [newestClaim_congr (h.claims (requireUnbacked_ok.mp hok))]

/-- A release still knows what it has read when no commit disturbs its assignment. -/
theorem known_of_undisturbed (h : ∀ a, other.Locks a → Undisturbed a site.db site'.db)
    (hknown : other.Known site) : other.Known site' := by
  cases other with
  | locked call row => exact (h _ rfl).occupied hknown
  | judged call row => exact ⟨(h _ rfl).occupied hknown.1, (h _ rfl).unbacked hknown.2⟩
  | cleared call row newest =>
    refine ⟨(h _ rfl).occupied hknown.1, (h _ rfl).unbacked hknown.2.1, ?_⟩
    rw [(h _ rfl).newest hknown.2.1]
    exact hknown.2.2
  | _ => trivial

theorem repair_sound : repairProtocol.Sound fun _ => True where
  start_locks := by
    rintro _ a ⟨job, rfl⟩
    exact id
  start_known := by
    rintro _ site ⟨job, rfl⟩
    trivial
  read_known := by
    intro worker site worker' hknown hread
    cases hread with
    | hold | sample | candidate | occupy | lockRefused | judgeRefused | clearRefused => trivial
    | lock call row _ h => exact h
    | judge call row _ h => exact ⟨hknown, h⟩
    | clear call row newest _ h => exact ⟨hknown.1, hknown.2, h⟩
  commit_inv := fun _ _ _ _ _ _ _ _ => trivial
  commit_known := by
    intro worker site deed worker' site' _ _ hcommit
    cases hcommit <;> trivial
  commit_stable := by
    intro worker site deed worker' site' other _ _ hcommit hknown hdisjoint
    exact known_of_undisturbed
      (fun a ha => commit_undisturbed hcommit fun hlock => hdisjoint a hlock ha) hknown

end Reads

end CampusQuest.Repairs
