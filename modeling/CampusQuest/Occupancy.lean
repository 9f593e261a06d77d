import CampusQuest.ClaimInvariants
import CampusQuest.Slots

/-!
Assignment occupancy. The availability of the assignments and the active claims are two
records of one board of slots, held by claims on behalf of a user and a task. The lifecycle
refines the board, so the two records agree in every reachable state; a finished claim, a
completed assignment and a return of an assignment are never undone.
-/

namespace CampusQuest.Lifecycle

open Tables Runs System Slots

def AssignmentAvailability.phase : AssignmentAvailability → Phase
  | .available => .free
  | .occupied => .taken
  | .completed | .retired => .closed

def AssignmentClaim.hold (c : AssignmentClaim) : Option (AssignmentId × (UserId × TaskId)) :=
  if c.status.active = true then some (c.assignmentId, (c.userId, c.taskId)) else none

namespace Db

def board (db : Db) : Board AssignmentId ClaimId (UserId × TaskId) where
  phase a := (db.assignments.get a).map fun row => row.availabilityStatus.phase
  holder k := (db.claims.get k).bind AssignmentClaim.hold

def activeClaims (db : Db) (a : AssignmentId) : ℕ :=
  db.claims.count fun _ c => c.assignmentId = a ∧ c.status.active = true

def activeClaimsOf (db : Db) (user : UserId) (task : TaskId) : ℕ :=
  db.claims.count fun _ c => c.userId = user ∧ c.taskId = task ∧ c.status.active = true

end Db

section Board

variable {db : Db} {k : ClaimId} {c c' : AssignmentClaim}

theorem hold_eq_some {h : AssignmentId × (UserId × TaskId)} :
    c.hold = some h ↔ c.status.active = true ∧ h = (c.assignmentId, (c.userId, c.taskId)) := by
  unfold AssignmentClaim.hold
  split
  next hactive => simp [hactive, eq_comm]
  next hactive => simp [hactive]

theorem hold_of_active (hsame : SameClaim c c') (hactive : c'.status.active = c.status.active) :
    c'.hold = c.hold := by
  unfold AssignmentClaim.hold
  rw [hactive, hsame.assignmentId, hsame.userId, hsame.taskId]

theorem hold_of_inactive (h : c.status.active = false) : c.hold = none := by
  unfold AssignmentClaim.hold
  rw [h]
  rfl

theorem hold_of_holding (h : c.status.active = true) :
    c.hold = some (c.assignmentId, (c.userId, c.taskId)) := by
  unfold AssignmentClaim.hold
  rw [if_pos h]

theorem holder_eq_some {h : AssignmentId × (UserId × TaskId)} :
    db.board.holder k = some h ↔ ∃ c, db.claims.get k = some c ∧ c.status.active = true ∧
      h = (c.assignmentId, (c.userId, c.taskId)) := by
  change (db.claims.get k).bind AssignmentClaim.hold = some h ↔ _
  rw [Option.bind_eq_some_iff]
  simp only [hold_eq_some]

theorem phase_eq_taken {a : AssignmentId} : db.board.phase a = some .taken ↔
    ∃ row, db.assignments.get a = some row ∧ row.availabilityStatus = .occupied := by
  change (db.assignments.get a).map _ = some Phase.taken ↔ _
  rw [Option.map_eq_some_iff]
  constructor
  · rintro ⟨row, hrow, hphase⟩
    refine ⟨row, hrow, ?_⟩
    cases hstatus : row.availabilityStatus <;>
      simp_all [AssignmentAvailability.phase]
  · rintro ⟨row, hrow, hstatus⟩
    exact ⟨row, hrow, by rw [hstatus]; rfl⟩

theorem board_ext {db db' : Db} (hphase : ∀ a, db'.board.phase a = db.board.phase a)
    (hholder : ∀ k, db'.board.holder k = db.board.holder k) : db'.board = db.board := by
  unfold Db.board at *
  simp only [Board.mk.injEq]
  exact ⟨funext hphase, funext hholder⟩

/-- Replacing a claim by one that holds the same leaves the board. -/
theorem board_putClaim {db' : Db} (hassignments : db'.assignments = db.assignments)
    (hclaims : db'.claims = db.claims.put k c') (hget : db.claims.get k = some c)
    (hhold : c'.hold = c.hold) : db'.board = db.board := by
  apply board_ext
  · intro a
    change (db'.assignments.get a).map _ = _
    rw [hassignments]
    rfl
  · intro i
    change (db'.claims.get i).bind _ = _
    rw [hclaims, Table.get_put]
    by_cases hi : i = k
    · rw [if_pos hi, hi, Option.bind_some, hhold]
      change _ = (db.claims.get k).bind _
      rw [hget]
      rfl
    · rw [if_neg hi]
      rfl

/-- Putting a claim on an assignment whose availability is written. -/
theorem board_put {db' : Db} {a : AssignmentId} (row : Assignment)
    (hassignments : db'.assignments = db.assignments.put a row)
    (hclaims : db'.claims = db.claims.put k c') :
    db'.board = ⟨Function.update db.board.phase a (some row.availabilityStatus.phase),
      Function.update db.board.holder k c'.hold⟩ := by
  unfold Db.board
  rw [hassignments, hclaims]
  simp only [Board.mk.injEq]
  constructor
  · funext i
    rw [Table.get_put, Function.update_apply]
    split <;> rfl
  · funext i
    rw [Table.get_put, Function.update_apply]
    split <;> rfl

/-- A new assignment is a new free slot. -/
theorem board_import {a : AssignmentId} (task : TaskId) (hfresh : db.assignments.get a = none) :
    Step db.board (.add a)
      { db with assignments := db.assignments.put a ⟨task, .available⟩ }.board := by
  have hnew : db.board.phase a = none := by
    change (db.assignments.get a).map _ = none
    rw [hfresh]
    rfl
  have hboard : { db with assignments := db.assignments.put a ⟨task, .available⟩ }.board =
      ⟨Function.update db.board.phase a (some .free), db.board.holder⟩ := by
    unfold Db.board
    simp only [Board.mk.injEq, and_true]
    funext i
    rw [Table.get_put, Function.update_apply]
    split <;> rfl
  rw [hboard]
  exact .add a hnew

/-- A committed claim takes a free slot for an owner who holds none. -/
theorem board_take {a : AssignmentId} {row : Assignment}
    (hassignment : db.assignments.get a = some row) (havailable : row.availabilityStatus = .available)
    (hfresh : db.claims.get k = none) (ha : c.assignmentId = a)
    (hactive : c.status.active = true) (howner : ¬ db.HasActiveClaim c.userId c.taskId) :
    Step db.board (.take k a (c.userId, c.taskId))
      ((db.setAvailability a row .occupied).putClaim k c).board := by
  have hboard : ((db.setAvailability a row .occupied).putClaim k c).board =
      ⟨Function.update db.board.phase a (some .taken), Function.update db.board.holder k c.hold⟩ :=
    board_put { row with availabilityStatus := .occupied } rfl rfl
  rw [hboard, hold_of_holding hactive, ha]
  refine .take k a _ ?_ ?_ ?_
  · change (db.assignments.get a).map _ = _
    rw [hassignment, Option.map_some, havailable]
    rfl
  · change (db.claims.get k).bind _ = none
    rw [hfresh]
    rfl
  · intro i a' hholder
    obtain ⟨c', hc', hlive, heq⟩ := holder_eq_some.mp hholder
    simp only [Prod.mk.injEq] at heq
    exact howner ⟨i, c', hc', heq.2.1.symm, heq.2.2.symm, hlive⟩

/-- While its slot is taken, leaving it writes the availability. -/
theorem leaveOccupied_assignments {a : AssignmentId} (status : AssignmentAvailability)
    (htaken : db.board.phase a = some .taken) :
    ∃ row, (db.leaveOccupied a status).assignments = db.assignments.put a row ∧
      row.availabilityStatus = status := by
  obtain ⟨row, hrow, hstatus⟩ := phase_eq_taken.mp htaken
  unfold Db.leaveOccupied
  rw [hrow]
  dsimp only
  rw [if_pos hstatus]
  exact ⟨_, rfl, rfl⟩

/-- Ending an active claim leaves its slot. -/
theorem board_leave {db' : Db} {status : AssignmentAvailability} (hexclusive : Exclusive db.board)
    (hget : db.claims.get k = some c) (hactive : c.status.active = true)
    (hended : c'.status.active = false) (hstatus : status.phase ≠ .taken)
    (hassignments : db'.assignments = (db.leaveOccupied c.assignmentId status).assignments)
    (hclaims : db'.claims = db.claims.put k c') :
    Step db.board (.leave k status.phase) db'.board := by
  have hheld : db.board.holder k = some (c.assignmentId, (c.userId, c.taskId)) :=
    holder_eq_some.mpr ⟨c, hget, hactive, rfl⟩
  obtain ⟨row, hput, hrow⟩ :=
    leaveOccupied_assignments status (hexclusive.held _ _ _ hheld)
  rw [board_put row (hassignments.trans hput) hclaims, hrow, hold_of_inactive hended]
  exact .leave k _ _ status.phase hheld hstatus

end Board

section Refinement

variable {s : State} {op : Op}

/-- Every effect of an operation is a move on the board or leaves the board as it was. -/
theorem Effect.board {db' : Db} (hexclusive : Exclusive s.db.board) (h : Effect s op db') :
    db'.board = s.db.board ∨ ∃ m, Step s.db.board m db'.board := by
  have hmoved : ∀ {k c c'}, db'.assignments = s.db.assignments →
      db'.claims = s.db.claims.put k c' → s.db.claims.get k = some c →
      ClaimMove s db' op k c c' → c'.status.active = c.status.active →
      db'.board = s.db.board := by
    intro k c c' hassignments hclaims hget hmove hactive
    exact board_putClaim hassignments hclaims hget (hold_of_active hmove.sameClaim hactive)
  cases h with
  | core _ hcore =>
    left
    unfold Db.board
    rw [hcore.assignments, hcore.claims]
  | imported id task hfresh => exact Or.inr ⟨_, board_import task hfresh⟩
  | cleaned | intentCleaned | intentMade | intentBurned | started | finished => exact Or.inl rfl
  | claimed user taskId id choice a row task deadlines _ hassignment havailable _ _ howner hfresh =>
    exact Or.inr ⟨_, board_take hassignment havailable hfresh rfl rfl howner⟩
  | ended _ id claim status t _ hclaim hactionable hstatus =>
    right
    have hphase : AssignmentAvailability.available.phase ≠ .taken := by decide
    have hended : (claim.terminate status t).status.active = false := by
      change status.active = false
      cases status <;> simp_all [ClaimStatus.reassignExcluded, ClaimStatus.active]
    refine ⟨_, board_leave hexclusive hclaim (ClaimStatus.active_of_actionable hactionable) hended
      hphase rfl ?_⟩
    simp only [Db.putClaim, leaveOccupied_claims]
  | finalized user intentId id head intent claim size policy hsize hclaim hactionable hopen hfresh =>
    left
    exact hmoved rfl rfl hclaim (.finalized user intentId id head _ claim _ hactionable hopen
      (Table.get_put_self _ _ _) rfl rfl) rfl
  | startedMoving id run row claim hrow hopen hfresh hclaim hactionable hguard =>
    left
    exact hmoved rfl rfl hclaim (.validating id run row claim hrow hopen hfresh hactionable hguard)
      (ClaimStatus.active_of_actionable hactionable).symm
  | finishedRestoring run report detected row sub claim status hrun _ _ hfailed hclaim hlatest
      hvalidating hstatus =>
    left
    refine hmoved rfl rfl hclaim (.restored run report detected row _ claim status hrun hfailed
      hlatest hvalidating hstatus) ?_
    change status.active = claim.status.active
    rw [hvalidating, hstatus]
    split <;> rfl
  | locked id row claim locked rows hrow hclaim hvalidated hactive hlocked hguard =>
    left
    refine hmoved rfl rfl hclaim (.locked id row claim locked rows hrow hvalidated hactive hlocked
      hguard) ?_
    rw [locked_status hactive hlocked, hactive]
    rfl
  | returned actor id note row claim hreviewable =>
    left
    exact hmoved rfl rfl hreviewable.held (.returned actor id note row claim hreviewable)
      hreviewable.active.symm
  | invalidated actor id reason row claim rows hreviewable hlock =>
    left
    exact hmoved rfl rfl hreviewable.held (.unlocked actor id reason row claim hreviewable hlock)
      hreviewable.active.symm
  | approved actor id row claim rows paid hreviewable hlock =>
    right
    have hphase : AssignmentAvailability.completed.phase ≠ .taken := by decide
    have hended : (claim.complete s.now).status.active = false := rfl
    refine ⟨_, board_leave hexclusive hreviewable.held hreviewable.active hended hphase rfl ?_⟩
    simp only [Db.putClaim, Db.putSubmission, leaveOccupied_claims]

theorem lifecycle_refines_board :
    Refines lifecycle (system AssignmentId ClaimId (UserId × TaskId)) fun s => s.db.board := by
  constructor
  · intro s hinit
    constructor
    · intro a htaken
      obtain ⟨row, hrow, hstatus⟩ := phase_eq_taken.mp htaken
      rw [hinit.available a row hrow] at hstatus
      cases hstatus
    · intro k
      change (s.db.claims.get k).bind _ = none
      rw [hinit.claims, Table.get_empty]
      rfl
  · rintro s op _ _ hboard rfl
    exact (apply_effect s op).board (exclusive_inductive.reach hboard)

theorem exclusive_reach (hs : lifecycle.Reach s) : Exclusive s.db.board :=
  lifecycle_refines_board.invariant exclusive_inductive hs

end Refinement

/-- The availability of the assignments agrees with the active claims. -/
structure Occupancy (db : Db) : Prop where
  occupied : ∀ a row, db.assignments.get a = some row →
    (row.availabilityStatus = .occupied ↔ db.activeClaims a = 1)
  vacant : ∀ a row, db.assignments.get a = some row → row.availabilityStatus ≠ .occupied →
    ∀ k c, db.claims.get k = some c → c.assignmentId = a → c.status.active = false
  single : ∀ user task, db.activeClaimsOf user task ≤ 1

section Counting

variable {db : Db}

theorem vacant_of_exclusive (h : Exclusive db.board) {a : AssignmentId} {row : Assignment}
    (hrow : db.assignments.get a = some row) (hstatus : row.availabilityStatus ≠ .occupied)
    {k : ClaimId} {c : AssignmentClaim} (hc : db.claims.get k = some c)
    (ha : c.assignmentId = a) : c.status.active = false := by
  by_contra hactive
  rw [Bool.not_eq_false] at hactive
  have htaken := h.held k _ _ (holder_eq_some.mpr ⟨c, hc, hactive, rfl⟩)
  rw [ha] at htaken
  obtain ⟨row', hrow', hoccupied⟩ := phase_eq_taken.mp htaken
  rw [hrow] at hrow'
  cases hrow'
  exact hstatus hoccupied

theorem activeClaims_of_taken (h : Exclusive db.board) {a : AssignmentId}
    (htaken : db.board.phase a = some .taken) : db.activeClaims a = 1 := by
  obtain ⟨k, o, hk⟩ := h.taken a htaken
  obtain ⟨c, hc, hactive, heq⟩ := holder_eq_some.mp hk
  have ha : a = c.assignmentId := congrArg Prod.fst heq
  have honly : ∀ k' c', db.claims.get k' = some c' →
      c'.assignmentId = a ∧ c'.status.active = true → k' = k := by
    rintro k' c' hc' ⟨ha', hactive'⟩
    have hk' := holder_eq_some.mpr ⟨c', hc', hactive', rfl⟩
    rw [ha'] at hk'
    exact h.slot k' k a _ o hk' hk
  unfold Db.activeClaims
  rw [Table.count_of_unique _ honly, hc, Option.elim_some, if_pos ⟨ha.symm, hactive⟩]

theorem activeClaimsOf_le_one (h : Exclusive db.board) (user : UserId) (task : TaskId) :
    db.activeClaimsOf user task ≤ 1 := by
  unfold Db.activeClaimsOf
  by_cases hany : db.HasActiveClaim user task
  · obtain ⟨k, c, hc, huser, htask, hactive⟩ := hany
    have honly : ∀ k' c', db.claims.get k' = some c' →
        c'.userId = user ∧ c'.taskId = task ∧ c'.status.active = true → k' = k := by
      rintro k' c' hc' ⟨huser', htask', hactive'⟩
      have hk := holder_eq_some.mpr ⟨c, hc, hactive, rfl⟩
      have hk' := holder_eq_some.mpr ⟨c', hc', hactive', rfl⟩
      rw [huser, htask] at hk
      rw [huser', htask'] at hk'
      exact h.owner k' k _ _ _ hk' hk
    exact Table.count_le_one _ honly
  · have hzero := Table.count_eq_zero (fun _ c => c.userId = user ∧ c.taskId = task ∧
      c.status.active = true) fun k c hc hof => hany ⟨k, c, hc, hof⟩
    omega

theorem occupancy_of_exclusive (h : Exclusive db.board) : Occupancy db := by
  refine ⟨fun a row hrow => ?_, fun a row hrow hstatus k c hc ha =>
    vacant_of_exclusive h hrow hstatus hc ha, activeClaimsOf_le_one h⟩
  constructor
  · intro hoccupied
    exact activeClaims_of_taken h (phase_eq_taken.mpr ⟨row, hrow, hoccupied⟩)
  · intro hone
    by_contra hstatus
    have hzero : db.activeClaims a = 0 := by
      refine Table.count_eq_zero _ fun k c hc hpoints => ?_
      rw [vacant_of_exclusive h hrow hstatus hc hpoints.1] at hpoints
      exact absurd hpoints.2 (by decide)
    omega

end Counting

structure Settled (db db' : Db) : Prop where
  terminal : ∀ k c, db.claims.get k = some c → c.status.terminal = true →
    ∃ c', db'.claims.get k = some c' ∧ c'.status = c.status
  completed : ∀ a row, db.assignments.get a = some row → row.availabilityStatus = .completed →
    ∀ k c, db'.claims.get k = some c → c.assignmentId = a → db.claims.get k ≠ none
  givenBack : ∀ k₀ c₀, db.claims.get k₀ = some c₀ → c₀.status.reassignExcluded = true →
    ∀ k c, db'.claims.get k = some c → c.assignmentId = c₀.assignmentId →
      c.userId = c₀.userId → db.claims.get k ≠ none

section History

variable {s s' : State} {l : List (State × Op × State)}

/-- A claim that has ended is never written again. -/
theorem ended_claim_stays (hs : lifecycle.Reach s) (hrun : lifecycle.Run s l s') {k : ClaimId}
    {c : AssignmentClaim} (hc : s.db.claims.get k = some c) (hended : c.status.active = false) :
    s'.db.claims.get k = some c := by
  refine Run.keeps (P := fun t => t.db.claims.get k = some c) ?_ hs hrun hc
  rintro t op _ _ hget rfl
  obtain ⟨c', hc', hmove⟩ := (apply_effect t op).claim_move hget
  rcases hmove.active with rfl | hactive
  · exact hc'
  · rw [hended] at hactive
    cases hactive

/-- While no claim of a kind can be made, the claims of that kind are those of before. -/
theorem claims_of_before {B : State → Prop} {Q : AssignmentClaim → Prop}
    (hQ : ∀ c c', SameClaim c c' → Q c' → Q c)
    (hB : ∀ t op, lifecycle.Reach t → B t → B (t.apply op))
    (hmade : ∀ t op k c, B t → ClaimMade t op k c → ¬ Q c)
    (hs : lifecycle.Reach s) (hrun : lifecycle.Run s l s') (hb : B s) :
    ∀ k c, s'.db.claims.get k = some c → Q c → s.db.claims.get k ≠ none := by
  have hkept : B s' ∧ ∀ k c, s'.db.claims.get k = some c → Q c → s.db.claims.get k ≠ none := by
    refine Run.keeps (P := fun t => B t ∧ ∀ k c, t.db.claims.get k = some c → Q c →
      s.db.claims.get k ≠ none) ?_ hs hrun ⟨hb, fun k c hc _ => by simp [hc]⟩
    rintro t op _ ht ⟨hbt, hold⟩ rfl
    refine ⟨hB t op ht hbt, fun k c' hc' hq => ?_⟩
    rcases claim_step hc' with hnew | ⟨c, hc, hmove⟩
    · exact absurd hq (hmade t op k c' hbt hnew)
    · exact hold k c hc (hQ c c' hmove.sameClaim hq)
  exact hkept.2

theorem settled_of_run (hs : lifecycle.Reach s) (hrun : lifecycle.Run s l s') :
    Settled s.db s'.db := by
  constructor
  · intro k c hc hterminal
    have hended : c.status.active = false := by
      rw [ClaimStatus.terminal_eq_not_active] at hterminal
      simpa using hterminal
    exact ⟨c, ended_claim_stays hs hrun hc hended, rfl⟩
  · intro a row hrow hcompleted
    have hclosed : s.db.board.phase a = some .closed := by
      change (s.db.assignments.get a).map _ = _
      rw [hrow, Option.map_some, hcompleted]
      rfl
    refine claims_of_before (B := fun t => t.db.board.phase a = some .closed)
      (Q := fun c => c.assignmentId = a) ?_ ?_ ?_ hs hrun hclosed
    · intro c c' hsame hq
      rw [← hsame.assignmentId, hq]
    · intro t op ht hclosed
      have hexclusive := exclusive_reach ht
      rcases (apply_effect t op).board hexclusive with hboard | ⟨m, hstep⟩
      · rw [hboard, hclosed]
      · exact closed_stays hexclusive hstep hclosed
    · rintro t _ k _ hclosed ⟨user, taskId, _, choice, a', row', task, deadlines, _, hget,
        havailable⟩ rfl
      change (t.db.assignments.get a').map _ = _ at hclosed
      rw [hget, Option.map_some, havailable] at hclosed
      cases hclosed
  · intro k₀ c₀ hc₀ hexcluded k c hc ha huser
    have hended : c₀.status.active = false := by
      cases hstatus : c₀.status <;> simp_all [ClaimStatus.reassignExcluded, ClaimStatus.active]
    refine claims_of_before (B := fun t => t.db.claims.get k₀ = some c₀)
      (Q := fun c => c.assignmentId = c₀.assignmentId ∧ c.userId = c₀.userId) ?_ ?_ ?_ hs hrun hc₀
      k c hc ⟨ha, huser⟩
    · intro c c' hsame hq
      rw [← hsame.assignmentId, ← hsame.userId]
      exact hq
    · intro t op ht hget
      exact ended_claim_stays ht (Run.snoc (Run.nil t) rfl) hget hended
    · rintro t _ i _ hget ⟨user, taskId, _, choice, a', row', task, deadlines, _, _, _, hgave⟩
        ⟨hassignment, hof⟩
      exact hgave ⟨k₀, c₀, hget, hof.symm, hassignment.symm, hexcluded⟩

/-- Assignment occupancy: in every reachable state the assignments agree with the active
claims, and along every run from it what was settled stays settled. -/
theorem assignment_occupancy (hs : lifecycle.Reach s) (hrun : lifecycle.Run s l s') :
    Occupancy s'.db ∧ Settled s.db s'.db :=
  ⟨occupancy_of_exclusive (exclusive_reach (hrun.reach hs)), settled_of_run hs hrun⟩

end History

def completedAndAbandoned : List Op :=
  .claim 7 1 1 (some 1) :: submits 1 [1] ++ [.startValidation 1 1,
    .finishValidation 1 passing none, .onValidationPassed 1, .approve ⟨9, .teacher⟩ 1,
    .claim 7 1 2 (some 2), .abandon (0, hours 24) 3 7 2]

theorem assignment_occupancy_completed :
    let s := (opening 50 (by decide)).run completedAndAbandoned
    let s' := s.run [.claim 7 1 3 (some 1), .claim 7 1 4 (some 2)]
    ((s.db.assignments.get 1).map Assignment.availabilityStatus = some .completed ∧
      (s.db.assignments.get 2).map Assignment.availabilityStatus = some .available) ∧
      Occupancy s'.db ∧ Settled s.db s'.db :=
  ⟨by decide +kernel, assignment_occupancy (reach_opening 50 (by decide) completedAndAbandoned)
    (run_trace _ _)⟩

end CampusQuest.Lifecycle
