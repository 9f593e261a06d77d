import CampusQuest.OperatorRepair
import Mathlib.Data.List.Induction

/-!
The repair of assignments in any run of claims, operations and other repairs. A claim that was not
given back stands after every other claim of its assignment when claims commit in the order of their
instants, and then the newest claim speaks for all of them. A claim that waits between its clock and
its candidate can take an earlier place, behind a claim that was given back in the meantime.
-/

namespace CampusQuest.Repairs

open Guards Lifecycle Locking Runs Tables

/-! ### Claims that stand in order -/

/-- Each claim is on an assignment. A claim that was not given back keeps its assignment from
being handed out, and stands after every other claim of it. -/
structure Backed (db : Db) : Prop where
  placed : ∀ k c, db.claims.get k = some c → db.assignments.get c.assignmentId ≠ none
  vacant : ∀ k c row, db.claims.get k = some c → c.status.reassignExcluded = false →
    db.assignments.get c.assignmentId = some row → row.availabilityStatus ≠ .available
  newest : ∀ k c k' c', db.claims.get k = some c → c.status.reassignExcluded = false →
    db.claims.get k' = some c' → c'.assignmentId = c.assignmentId → k' ≠ k →
      Earlier (k', c') (k, c)

section Order

variable {site site' : Site} {worker worker' : Worker} {deed : Deed} {s : State} {op : Op}
  {db db' : Db} {a : AssignmentId} {k k' : ClaimId} {c c' : AssignmentClaim}

/-- No two claims of an assignment are still not given back. -/
theorem Backed.only (h : Backed db) (hc : db.claims.get k = some c)
    (hlive : c.status.reassignExcluded = false) (hc' : db.claims.get k' = some c')
    (hlive' : c'.status.reassignExcluded = false) (ha : c'.assignmentId = c.assignmentId) :
    k' = k := by
  by_contra hne
  exact (h.newest k c k' c' hc hlive hc' ha hne).asymm
    (h.newest k' c' k c hc' hlive' hc ha.symm (Ne.symm hne))

theorem Backed.apply (h : Backed s.db)
    (hop : ∀ user task id choice, op ≠ .claim user task id choice) :
    Backed (s.apply op).db := by
  refine ⟨fun k c hc => ?_, fun k c row' hc hlive hrow' => ?_,
    fun k c k' c' hc hlive hc' ha hne => ?_⟩
  · obtain ⟨c₀, hc₀, hkept⟩ := op_old hop hc
    rw [hkept.assignmentId]
    exact op_stays s op (h.placed k c₀ hc₀)
  · obtain ⟨c₀, hc₀, hkept⟩ := op_old hop hc
    rw [hkept.assignmentId] at hrow'
    rcases op_row hop hrow' with hrow | hnone | hcompleted | ⟨i, x, x', hx, ha, hactive, hx', hback⟩
    · exact h.vacant k c₀ row' hc₀ (hkept.live hlive) hrow
    · exact absurd hnone (h.placed k c₀ hc₀)
    · rw [hcompleted]
      exact fun h => by cases h
    · obtain rfl := h.only hc₀ (hkept.live hlive) hx (live_of_active hactive) ha
      obtain rfl := Option.some.inj (hc.symm.trans hx')
      rw [hlive] at hback
      cases hback
  · obtain ⟨c₀, hc₀, hkept⟩ := op_old hop hc
    obtain ⟨c₁, hc₁, hkept'⟩ := op_old hop hc'
    rw [hkept.assignmentId, hkept'.assignmentId] at ha
    have hearlier := h.newest k c₀ k' c₁ hc₀ (hkept.live hlive) hc₁ ha hne
    unfold Earlier at hearlier ⊢
    rw [hkept.claimedAt, hkept'.claimedAt]
    exact hearlier

theorem Backed.setAvailability (h : Backed db) {row : Assignment} {status : AssignmentAvailability}
    (hstatus : status = .available → ∀ k c, db.claims.get k = some c → c.assignmentId = a →
      c.status.reassignExcluded = true) : Backed (db.setAvailability a row status) := by
  refine ⟨fun k c hc => put_stays (h.placed k c hc), fun k c row' hc hlive hrow' => ?_,
    h.newest⟩
  rcases Table.get_put_eq_some hrow' with ⟨ha, rfl⟩ | ⟨_, hold⟩
  · rintro rfl
    have hback := hstatus rfl k c hc ha
    rw [hlive] at hback
    cases hback
  · exact h.vacant k c row' hc hlive hold

/-- A claim that stands after the earlier ones of its assignment. -/
theorem Backed.claim (h : Backed db) {row : Assignment} (hrow : db.assignments.get a = some row)
    (havailable : row.availabilityStatus = .available) (hfresh : db.claims.get k = none)
    (ha : c.assignmentId = a) (hlive : c.status.reassignExcluded = false)
    (horder : ∀ k' c', db.claims.get k' = some c' → c'.assignmentId = a →
      Earlier (k', c') (k, c)) :
    Backed ((db.setAvailability a row .occupied).putClaim k c) := by
  have hback : ∀ k' c', db.claims.get k' = some c' → c'.assignmentId = a →
      c'.status.reassignExcluded = true := by
    intro k' c' hc' ha'
    rw [← Bool.not_eq_false]
    intro hlive'
    exact h.vacant k' c' row hc' hlive' (ha' ▸ hrow) havailable
  have hset : Backed (db.setAvailability a row .occupied) := h.setAvailability fun h => by cases h
  refine ⟨fun k' c' hc' => ?_, fun k' c' row' hc' hlive' hrow' => ?_,
    fun i x i' x' hx hliving hx' hax hne => ?_⟩
  · rcases Table.get_put_eq_some hc' with ⟨rfl, rfl⟩ | ⟨_, hold⟩
    · rw [ha]
      exact put_stays (by rw [hrow]; exact Option.some_ne_none _)
    · exact hset.placed k' c' hold
  · rcases Table.get_put_eq_some hc' with ⟨rfl, rfl⟩ | ⟨_, hold⟩
    · rcases Table.get_put_eq_some hrow' with ⟨_, rfl⟩ | ⟨hne, _⟩
      · exact fun h => by cases h
      · exact absurd ha hne
    · exact hset.vacant k' c' row' hold hlive' hrow'
  · rcases Table.get_put_eq_some hx with ⟨rfl, rfl⟩ | ⟨_, hold⟩
    · rcases Table.get_put_eq_some hx' with ⟨rfl, _⟩ | ⟨_, hold'⟩
      · exact absurd rfl hne
      · exact horder i' x' hold' (hax.trans ha)
    · rcases Table.get_put_eq_some hx' with ⟨rfl, rfl⟩ | ⟨_, hold'⟩
      · have hgiven := hback i x hold (hax.symm.trans ha)
        rw [hliving] at hgiven
        cases hgiven
      · exact h.newest i x i' x' hold hliving hold' hax hne

/-- What the command has judged: no claim of the assignment is active or completed. -/
theorem Backed.given (h : Backed db) {newest : Option (ClaimId × AssignmentClaim)}
    (hnewest : newestReleasable db a = .ok newest) (hc : db.claims.get k = some c)
    (ha : c.assignmentId = a) : c.status.reassignExcluded = true := by
  obtain ⟨hclaim, hback⟩ := newestReleasable_ok.mp hnewest
  cases newest with
  | none => exact absurd ha (newestClaim_none hclaim hc)
  | some e =>
    obtain ⟨k₀, c₀⟩ := e
    obtain ⟨hget, ha₀, hlast⟩ := newestClaim_some hclaim
    by_cases hk : k = k₀
    · obtain rfl := hk
      obtain rfl := Option.some.inj (hc.symm.trans hget)
      exact hback k c rfl
    · rw [← Bool.not_eq_false]
      intro hlive
      exact (hlast k c hc ha hk).asymm
        (h.newest k c k₀ c₀ hc hlive hget (ha₀.trans ha.symm) (Ne.symm hk))

end Order

/-! ### The command at any time -/

def Backing (db : Db) (a : AssignmentId) : Prop :=
  ∃ k c, db.claims.get k = some c ∧ c.assignmentId = a ∧
    (c.status.active = true ∨ c.status = .completed)

structure SafeRelease (call : ReleaseCall) (before after : Site) : Prop where
  unbacked : ¬ Backing before.db call.assignmentId
  repaired : ∃ row, before.db.assignments.get call.assignmentId = some row ∧
    row.availabilityStatus = .occupied ∧ after.state = { before.state with
      db := before.db.setAvailability call.assignmentId row .available }
  audited : ∃ entry, after.audit = before.audit ++ [entry] ∧ entry.actor = call.actor ∧
    entry.targetId = call.assignmentId ∧ entry.reason = call.reason
  dangling : ¬ Occupancy before.db
  atomic : before.release call = .ok after

section Sites

variable {site site' : Site} {call : ReleaseCall} {a b : AssignmentId} {row : Assignment}

theorem release_ok : site.release call = .ok site' ↔ ∃ row newest,
    requireOccupied site.db call = .ok row ∧
      requireUnbacked site.db call.assignmentId = .ok () ∧
      newestReleasable site.db call.assignmentId = .ok newest ∧
      site' = site.released call row newest := by
  unfold Site.release
  constructor
  · intro h
    obtain ⟨row, hrow, h⟩ := bind_ok.mp h
    obtain ⟨_, hunbacked, h⟩ := bind_ok.mp h
    obtain ⟨newest, hnewest, h⟩ := bind_ok.mp h
    exact ⟨row, newest, hrow, hunbacked, hnewest, (Except.ok.inj h).symm⟩
  · rintro ⟨row, newest, hrow, hunbacked, hnewest, rfl⟩
    exact bind_ok.mpr ⟨row, hrow, bind_ok.mpr ⟨(), hunbacked, bind_ok.mpr ⟨newest, hnewest, rfl⟩⟩⟩

/-- An assignment without an active claim is not OCCUPIED where the two records agree. -/
theorem not_occupancy {db : Db} (hrow : requireOccupied db call = .ok row)
    (hunbacked : requireUnbacked db call.assignmentId = .ok ()) : ¬ Occupancy db := by
  intro h
  obtain ⟨_, _, hget, hoccupied⟩ := requireOccupied_ok.mp hrow
  have hinactive := requireUnbacked_ok.mp hunbacked
  have hone := (h.occupied call.assignmentId row hget).mp hoccupied
  have hzero : db.activeClaims call.assignmentId = 0 := by
    refine Table.count_eq_zero _ fun k c hc hof => ?_
    have hnot := hinactive k c hc hof.1
    rw [hof.2] at hnot
    cases hnot
  omega

theorem release_refused (h : Occupancy site.db) (call : ReleaseCall) :
    ∃ e, site.release call = .error e := by
  cases hanswer : site.release call with
  | error e => exact ⟨e, rfl⟩
  | ok site' =>
    obtain ⟨row, _, hrow, hunbacked, _, _⟩ := release_ok.mp hanswer
    exact absurd h (not_occupancy hrow hunbacked)

theorem backing_of_refused {e : RepairError} (hadmin : isAdmin call.actor.role = true)
    (hreason : strip call.reason ≠ []) (hrow : site.db.assignments.get call.assignmentId = some row)
    (hoccupied : row.availabilityStatus = .occupied) (h : site.release call = .error e) :
    Backing site.db call.assignmentId := by
  have hlocked : requireOccupied site.db call = .ok row :=
    requireOccupied_ok.mpr ⟨hadmin, hreason, hrow, hoccupied⟩
  by_contra hnone
  have hunbacked : requireUnbacked site.db call.assignmentId = .ok () := by
    refine requireUnbacked_ok.mpr fun k c hc ha => ?_
    rw [← Bool.not_eq_true]
    exact fun hactive => hnone ⟨k, c, hc, ha, .inl hactive⟩
  have hreleasable : newestReleasable site.db call.assignmentId =
      .ok (newestClaim site.db call.assignmentId) := by
    refine newestReleasable_ok.mpr ⟨rfl, fun k c hnewest => ?_⟩
    obtain ⟨hc, ha, _⟩ := newestClaim_some hnewest
    have hactive := requireUnbacked_ok.mp hunbacked k c hc ha
    have hcompleted : c.status ≠ .completed := fun h => hnone ⟨k, c, hc, ha, .inr h⟩
    cases hstatus : c.status <;>
      simp_all [ClaimStatus.active, ClaimStatus.reassignExcluded]
  rw [release_ok.mpr ⟨row, _, hlocked, hunbacked, hreleasable, rfl⟩] at h
  cases h

/-- One more assignment of a repair of many. -/
theorem releaseAll_concat (site : Site) (actor : Actor) (reason : Text) (ids : List AssignmentId)
    (a : AssignmentId) : site.releaseAll actor reason (ids ++ [a]) =
      (site.releaseAll actor reason ids).releaseAll actor reason [a] :=
  List.foldl_append

theorem releaseAll_one (site : Site) (actor : Actor) (reason : Text) (a : AssignmentId) :
    (∃ site', site.release ⟨actor, a, reason⟩ = .ok site' ∧
      site.releaseAll actor reason [a] = site') ∨
    ∃ e, site.release ⟨actor, a, reason⟩ = .error e ∧ site.releaseAll actor reason [a] = site := by
  cases h : site.release ⟨actor, a, reason⟩ with
  | ok site' =>
    refine .inl ⟨site', rfl, ?_⟩
    unfold Site.releaseAll
    rw [List.foldl_cons, List.foldl_nil, h]
  | error e =>
    refine .inr ⟨e, rfl, ?_⟩
    unfold Site.releaseAll
    rw [List.foldl_cons, List.foldl_nil, h]

/-- What a release leaves to the others: the claims as they are, and no OCCUPIED row that was not
there before. -/
theorem release_frame (h : site.release call = .ok site') :
    site'.db.claims = site.db.claims ∧ ∀ b row, site'.db.assignments.get b = some row →
      row.availabilityStatus = .occupied →
      b ≠ call.assignmentId ∧ site.db.assignments.get b = some row := by
  obtain ⟨row, newest, _, _, _, rfl⟩ := release_ok.mp h
  refine ⟨rfl, fun b row' hrow' hoccupied => ?_⟩
  rcases Table.get_put_eq_some hrow' with ⟨_, rfl⟩ | ⟨hne, hold⟩
  · cases hoccupied
  · exact ⟨hne, hold⟩

/-- When each assignment has been tried, those that are still OCCUPIED are backed. -/
theorem backing_of_releaseAll {actor : Actor} {reason : Text} (hadmin : isAdmin actor.role = true)
    (hreason : strip reason ≠ []) (ids : List AssignmentId) :
    (site.releaseAll actor reason ids).db.claims = site.db.claims ∧
      ∀ a row, (site.releaseAll actor reason ids).db.assignments.get a = some row →
        row.availabilityStatus = .occupied →
        site.db.assignments.get a = some row ∧ (a ∈ ids → Backing site.db a) := by
  induction ids using List.reverseRecOn with
  | nil => exact ⟨rfl, fun a row hrow _ => ⟨hrow, fun h => absurd h List.not_mem_nil⟩⟩
  | append_singleton ids b ih =>
    rw [releaseAll_concat]
    obtain ⟨hclaims, hrows⟩ := ih
    have hbacking : ∀ a, Backing (site.releaseAll actor reason ids).db a → Backing site.db a := by
      rintro a ⟨k, c, hc, hof⟩
      exact ⟨k, c, hclaims ▸ hc, hof⟩
    rcases releaseAll_one (site.releaseAll actor reason ids) actor reason b with
      ⟨site', hok, h⟩ | ⟨e, herror, h⟩
    · rw [h]
      obtain ⟨hsame, hframe⟩ := release_frame hok
      refine ⟨hsame.trans hclaims, fun a row hrow hoccupied => ?_⟩
      obtain ⟨hne, hbefore⟩ := hframe a row hrow hoccupied
      obtain ⟨hfirst, hmem⟩ := hrows a row hbefore hoccupied
      refine ⟨hfirst, fun ha => hmem ?_⟩
      exact (List.mem_append.mp ha).resolve_right fun hb => hne (List.mem_singleton.mp hb)
    · rw [h]
      refine ⟨hclaims, fun a row hrow hoccupied => ?_⟩
      obtain ⟨hfirst, hmem⟩ := hrows a row hrow hoccupied
      refine ⟨hfirst, fun ha => ?_⟩
      rcases List.mem_append.mp ha with hold | hb
      · exact hmem hold
      · obtain rfl := List.mem_singleton.mp hb
        exact hbacking a (backing_of_refused hadmin hreason hrow hoccupied herror)

end Sites

/-! ### The command in any run -/

section Runs

variable {ι : Type*} [DecidableEq ι]

abbrev repairSystem (ι : Type*) [DecidableEq ι] :
    System (Config ι Site Worker) (Move ι Deed) :=
  repairProtocol.system ι Site.Opening

/-- A claim that commits stands after all earlier claims of its assignment. -/
def InOrder (c : Config ι Site Worker) (move : Move ι Deed) : Prop :=
  ∀ id t a, move.2 = some (.claim id t a) → ∀ k x, c.store.db.claims.get k = some x →
    x.assignmentId = a → x.claimedAt < t ∨ x.claimedAt = t ∧ k < id

structure SafeAt (c : Config ι Site Worker) : Prop where
  unchanged : ∀ i c', (repairSystem ι).step c (i, none) c' → c'.store = c.store
  safe : ∀ i call c', (repairSystem ι).step c (i, some (.release call)) c' →
    SafeRelease call c.store c'.store
  refused : Occupancy c.store.db → ∀ call, ∃ e, c.store.release call = .error e
  finished : ∀ actor reason ids, isAdmin actor.role = true → strip reason ≠ [] →
    (∀ a, c.store.db.assignments.get a ≠ none → a ∈ ids) →
    ∀ a row, (c.store.releaseAll actor reason ids).db.assignments.get a = some row →
      row.availabilityStatus = .occupied →
      Backing (c.store.releaseAll actor reason ids).db a

theorem backed_opening {site : Site} (h : site.Opening) : Backed site.db := by
  have hnone : ∀ k c, site.db.claims.get k ≠ some c := by
    intro k c hc
    change site.state.db.claims.get k = some c at hc
    rw [h.lifecycle.claims, Table.get_empty] at hc
    cases hc
  exact ⟨fun k c hc => absurd hc (hnone k c), fun k c _ hc => absurd hc (hnone k c),
    fun k c _ _ hc => absurd hc (hnone k c)⟩

/-- Each commit of a run in order keeps the claims in order. -/
theorem backed_commit {worker worker' : Worker} {site site' : Site} {deed : Deed}
    (h : Backed site.db) (hknown : worker.Known site)
    (horder : ∀ id t a, deed = .claim id t a → ∀ k x, site.db.claims.get k = some x →
      x.assignmentId = a → x.claimedAt < t ∨ x.claimedAt = t ∧ k < id)
    (hcommit : Commit worker site deed worker' site') : Backed site'.db := by
  cases hcommit with
  | free op _ hop => exact h.apply hop
  | held op a _ hop => exact h.apply hop
  | claim user task id t a _ claim db hclaim =>
    obtain ⟨row, hrow, havailable, hfresh, ha, ht, hstatus, rfl⟩ := claim_taken hclaim
    refine h.claim hrow havailable hfresh ha (by rw [hstatus]; rfl) fun k x hx hax => ?_
    unfold Earlier
    rw [ht]
    exact horder id t a rfl k x hx hax
  | occupy a row => exact h.setAvailability fun h => by cases h
  | release call row newest =>
    exact h.setAvailability fun _ k c hc ha => h.given hknown.2.2 hc ha

theorem backed_reach {c : Config ι Site Worker} (hc : ((repairSystem ι).guarded InOrder).Reach c) :
    Backed c.store.db := by
  induction hc with
  | init hinit => exact backed_opening hinit.1
  | step hreach hstep ih =>
    obtain ⟨hstep, horder⟩ := hstep
    obtain ⟨_, ⟨_, hsame⟩ | ⟨deed, worker', hdeed, hknown, hcommit⟩⟩ :=
      repair_sound.step_store (fun _ _ => trivial) hreach.of_guarded hstep
    · rw [hsame]
      exact ih
    · refine backed_commit ih hknown (fun id t a h => horder id t a ?_) hcommit
      rw [hdeed, h]

/-- In every run whose claims commit in order, whatever else happens in between, a release is safe
when it commits, is refused where the records agree, and repairs what can be repaired. -/
theorem repair_is_safe (c : Config ι Site Worker)
    (hc : ((repairSystem ι).guarded InOrder).Reach c) : SafeAt c where
  unchanged := by
    intro i c' hstep
    cases hstep
    rfl
  safe := by
    intro i call c' hstep
    obtain ⟨_, ⟨hnone, _⟩ | ⟨deed, worker', hdeed, hknown, hcommit⟩⟩ :=
      repair_sound.step_store (fun _ _ => trivial) hc.of_guarded hstep
    · cases hnone
    · obtain rfl := Option.some.inj hdeed
      generalize c.proc i = worker at hknown hcommit
      generalize hafter : c'.store = after at hcommit
      cases hcommit with
      | release _ row newest =>
        obtain ⟨hrow, hunbacked, hnewest⟩ := hknown
        obtain ⟨_, _, hget, hoccupied⟩ := requireOccupied_ok.mp hrow
        refine ⟨?_, ⟨row, hget, hoccupied, rfl⟩, ⟨_, rfl, rfl, rfl, rfl⟩,
          not_occupancy hrow hunbacked,
          release_ok.mpr ⟨row, newest, hrow, hunbacked, hnewest, rfl⟩⟩
        rintro ⟨k, x, hx, ha, hbacks⟩
        have hgiven := (backed_reach hc).given hnewest hx ha
        rcases hbacks with hactive | hcompleted
        · rw [live_of_active hactive] at hgiven
          cases hgiven
        · rw [hcompleted] at hgiven
          cases hgiven
  refused := fun h call => release_refused h call
  finished := by
    intro actor reason ids hadmin hreason hall a row hrow hoccupied
    obtain ⟨hclaims, hrows⟩ := @backing_of_releaseAll c.store _ _ hadmin hreason ids
    obtain ⟨hfirst, hmem⟩ := hrows a row hrow hoccupied
    obtain ⟨k, x, hx, hof⟩ := hmem (hall a (by rw [hfirst]; exact Option.some_ne_none row))
    exact ⟨k, x, hclaims ▸ hx, hof⟩

end Runs

/-! ### One transaction after the other -/

section Serial

variable {ι : Type*} [DecidableEq ι] {G : Config ι Site Worker → Move ι Deed → Prop} {site : Site}
  {proc : ι → Worker} {i : ι}

def Quiet (proc : ι → Worker) : Prop := ∀ i a, ¬ (proc i).Locks a

theorem Quiet.update {worker : Worker} (h : Quiet proc) (hworker : ∀ a, ¬ worker.Locks a) :
    Quiet (Function.update proc i worker) := by
  intro j a
  rw [Function.update_apply]
  split
  · exact hworker a
  · exact h j a

theorem Quiet.done (h : Quiet proc) : Quiet (Function.update proc i .done) := h.update fun _ => id

/-- While nobody else holds a lock, a statement goes through. -/
theorem reach_read {worker : Worker} (hG : ∀ c, G c (i, none))
    (h : ((repairSystem ι).guarded G).Reach ⟨site, proc⟩)
    (hfree : ∀ j, j ≠ i → ∀ a, ¬ (proc j).Locks a) (hread : Read (proc i) site worker) :
    ((repairSystem ι).guarded G).Reach ⟨site, Function.update proc i worker⟩ :=
  .step h ⟨.read _ i worker hread fun j hj a _ => hfree j hj a, hG _⟩

theorem reach_commit {site' : Site} {deed : Deed} (hG : G ⟨site, proc⟩ (i, some deed))
    (h : ((repairSystem ι).guarded G).Reach ⟨site, proc⟩)
    (hcommit : Commit (proc i) site deed .done site') :
    ((repairSystem ι).guarded G).Reach ⟨site', Function.update proc i .done⟩ := by
  have hfree : repairProtocol.Free ⟨site, proc⟩ i .done := fun _ _ _ hlock => absurd hlock id
  exact .step h ⟨.commit _ i deed _ site' hcommit hfree, hG⟩

/-- An operation of the lifecycle, with nothing in between. -/
theorem reach_op {op : Op} (hG : ∀ c, G c (i, none)) (hG' : ∀ c op, G c (i, some (.op op)))
    (h : ((repairSystem ι).guarded G).Reach ⟨site, proc⟩) (hquiet : Quiet proc)
    (hi : proc i = .called (.op op))
    (hop : ∀ user task id choice, op ≠ .claim user task id choice) :
    ((repairSystem ι).guarded G).Reach
      ⟨⟨site.state.apply op, site.audit⟩, Function.update proc i .done⟩ := by
  cases htouched : touched site.db op with
  | none =>
    refine reach_commit (hG' _ op) h ?_
    rw [hi]
    exact .free op site hop htouched
  | some a =>
    have hheld := reach_read hG h (fun j _ => hquiet j) (by rw [hi]; exact .hold op a site)
    have hdone := reach_commit (i := i) (hG' _ op) hheld
      (by rw [Function.update_self]; exact .held op a site hop htouched)
    rwa [Function.update_idem] at hdone

theorem reach_ops {G : Config ℕ Site Worker → Move ℕ Deed → Prop} {site : Site}
    {proc : ℕ → Worker} (hG : ∀ c i, G c (i, none)) (hG' : ∀ c i op, G c (i, some (.op op)))
    (h : ((repairSystem ℕ).guarded G).Reach ⟨site, proc⟩) (hquiet : Quiet proc) (ops : List Op)
    (n : ℕ) (hops : ∀ j op, ops[j]? = some op → proc (n + j) = .called (.op op) ∧
      ∀ user task id choice, op ≠ .claim user task id choice) :
    ∃ proc', ((repairSystem ℕ).guarded G).Reach ⟨⟨site.state.run ops, site.audit⟩, proc'⟩ ∧
      Quiet proc' ∧ ∀ i, i < n ∨ n + ops.length ≤ i → proc' i = proc i := by
  induction ops generalizing site proc n with
  | nil => exact ⟨proc, h, hquiet, fun _ _ => rfl⟩
  | cons op ops ih =>
    obtain ⟨hi, hop⟩ := hops 0 op rfl
    have hstep := reach_op (fun c => hG c n) (fun c => hG' c n) h hquiet hi hop
    obtain ⟨proc', hreach, hquiet', hsame⟩ := ih hstep (hquiet.update fun _ => id) (n + 1)
      fun j op' hj => by
        obtain ⟨hcalled, hnot⟩ := hops (j + 1) op' hj
        rw [Function.update_of_ne (by omega), ← hcalled]
        exact ⟨by rw [Nat.add_right_comm, Nat.add_assoc], hnot⟩
    refine ⟨proc', hreach, hquiet', fun i hi => ?_⟩
    rw [List.length_cons] at hi
    rw [hsame i (by omega), Function.update_of_ne (by omega)]

/-- The second half of a claim. -/
theorem reach_claim {user : UserId} {task : TaskId} {id : ClaimId} {t : Instant} {a : AssignmentId}
    (hG : ∀ c, G c (i, none)) (hG' : ∀ proc, G ⟨site, proc⟩ (i, some (.claim id t a)))
    (h : ((repairSystem ι).guarded G).Reach ⟨site, proc⟩) (hquiet : Quiet proc)
    (hi : proc i = .sampled user task id t)
    (hok : (claimRandomAssignment site.db t user task id (some a)).isOk = true) :
    ((repairSystem ι).guarded G).Reach
      ⟨⟨site.state.commit (claimRandomAssignment site.db t user task id (some a)), site.audit⟩,
        Function.update proc i .done⟩ := by
  cases hclaim : claimRandomAssignment site.db t user task id (some a) with
  | error e =>
    rw [hclaim] at hok
    cases hok
  | ok result =>
    obtain ⟨claim, db⟩ := result
    have hheld := reach_read hG h (fun j _ => hquiet j)
      (by rw [hi]; exact .candidate user task id t a site)
    have hdone := reach_commit (i := i) (hG' _) hheld
      (by rw [Function.update_self]; exact .claim user task id t a site claim db hclaim)
    rwa [Function.update_idem] at hdone

theorem reach_occupy {a : AssignmentId} (row : Assignment) (hG : ∀ c, G c (i, none))
    (hG' : ∀ c, G c (i, some (.occupy a))) (h : ((repairSystem ι).guarded G).Reach ⟨site, proc⟩)
    (hquiet : Quiet proc) (hi : proc i = .called (.occupy a))
    (hrow : site.db.assignments.get a = some row) :
    ((repairSystem ι).guarded G).Reach
      ⟨⟨{ site.state with db := site.db.setAvailability a row .occupied }, site.audit⟩,
        Function.update proc i .done⟩ := by
  have hheld := reach_read hG h (fun j _ => hquiet j) (by rw [hi]; exact .occupy a site)
  have hdone := reach_commit (i := i) (hG' _) hheld
    (by rw [Function.update_self]; exact .occupy a row site hrow)
  rwa [Function.update_idem] at hdone

/-- A command that would release the assignment comes to its commit. -/
theorem reach_release {site' : Site} {call : ReleaseCall} (hG : ∀ c, G c (i, none))
    (h : ((repairSystem ι).guarded G).Reach ⟨site, proc⟩) (hquiet : Quiet proc)
    (hi : proc i = .called (.release call)) (hok : site.release call = .ok site') :
    ∃ proc' c', ((repairSystem ι).guarded G).Reach ⟨site, proc'⟩ ∧ c'.store = site' ∧
      (repairSystem ι).step ⟨site, proc'⟩ (i, some (.release call)) c' := by
  obtain ⟨row, newest, hrow, hunbacked, hnewest, rfl⟩ := release_ok.mp hok
  have hothers : ∀ worker j, j ≠ i → ∀ a, ¬ (Function.update proc i worker j).Locks a := by
    intro worker j hj a
    rw [Function.update_of_ne hj]
    exact hquiet j a
  have hlocked := reach_read hG h (fun j _ => hquiet j) (by rw [hi]; exact .lock call row site hrow)
  have hjudged := reach_read hG hlocked (hothers _)
    (by rw [Function.update_self]; exact .judge call row site hunbacked)
  rw [Function.update_idem] at hjudged
  have hcleared := reach_read hG hjudged (hothers _)
    (by rw [Function.update_self]; exact .clear call row newest site hnewest)
  rw [Function.update_idem] at hcleared
  refine ⟨_, ⟨site.released call row newest, _⟩, hcleared, rfl, .commit _ i _ .done _ ?_ ?_⟩
  · change Commit (Function.update proc i _ i) _ _ _ _
    rw [Function.update_self]
    exact .release call row newest site
  · exact fun _ _ _ hlock => absurd hlock id

end Serial

/-! ### Two runs -/

section Witness

def start (jobs : List Job) (i : ℕ) : Worker := .called ((jobs[i]?).getD (.occupy 0))

def openingSite : Site := ⟨opening 50 base_pos, []⟩

theorem reach_start (G : Config ℕ Site Worker → Move ℕ Deed → Prop) (jobs : List Job) :
    ((repairSystem ℕ).guarded G).Reach ⟨openingSite, start jobs⟩ ∧ Quiet (start jobs) :=
  ⟨.init ⟨⟨opening_initial 50 base_pos, rfl⟩, fun _ => ⟨_, rfl⟩⟩, fun _ _ => id⟩

def repairCall : ReleaseCall := ⟨⟨9, .admin⟩, 1, ['r']⟩

/-- The student claims and abandons the assignment, which is then set to OCCUPIED by hand. -/
def abandonedJobs : List Job :=
  [.claim 7 1 1, .op (.abandon (0, hours 24) 3 7 1), .occupy 1, .release repairCall]

def claimedState : State :=
  openingSite.state.commit (claimRandomAssignment openingSite.db 0 7 1 1 (some 1))

def danglingSite : Site where
  state :=
    let s := claimedState.apply (.abandon (0, hours 24) 3 7 1)
    { s with db := s.db.setAvailability 1 ⟨1, .available⟩ .occupied }
  audit := []

theorem repair_is_safe_abandoned : ∃ c c' : Config ℕ Site Worker,
    ((repairSystem ℕ).guarded InOrder).Reach c ∧
      (repairSystem ℕ).step c (3, some (.release repairCall)) c' ∧
      SafeRelease repairCall c.store c'.store := by
  have hread : ∀ c i, InOrder c ((i, none) : Move ℕ Deed) := fun _ _ _ _ _ h => by cases h
  obtain ⟨hstart, hquiet⟩ := reach_start InOrder abandonedJobs
  have hsampled := reach_read (i := 0) (fun c => hread c 0) hstart (fun j _ => hquiet j)
    (.sample 7 1 1 openingSite)
  have hfirst : ∀ proc, InOrder ⟨openingSite, proc⟩ ((0, some (.claim 1 0 1)) : Move ℕ Deed) := by
    intro proc id t a _ k x hx
    change (Table.empty : Table ClaimId AssignmentClaim).get k = some x at hx
    rw [Table.get_empty] at hx
    cases hx
  have hquiet : Quiet (Function.update _ 0 (.sampled 7 1 1 0)) := hquiet.update fun _ => id
  have hclaimed := reach_claim (i := 0) (a := 1) (fun c => hread c 0) hfirst hsampled hquiet
    (Function.update_self _ _ _) (by decide +kernel)
  have hquiet := hquiet.done (i := 0)
  have habandoned := reach_op (i := 1) (fun c => hread c 1) (fun _ _ _ _ _ h => by cases h)
    hclaimed hquiet rfl fun _ _ _ _ h => by cases h
  have hquiet := hquiet.done (i := 1)
  have hdangling := reach_occupy (i := 2) (a := 1) ⟨1, .available⟩ (fun c => hread c 2)
    (fun _ _ _ _ h => by cases h) habandoned hquiet rfl (by decide +kernel)
  have hok : (danglingSite.release repairCall).isOk = true := by decide +kernel
  cases hrelease : danglingSite.release repairCall with
  | error e =>
    rw [hrelease] at hok
    cases hok
  | ok site' =>
    obtain ⟨proc', c', hreach, _, hstep⟩ := reach_release (i := 3) (fun c => hread c 3) hdangling
      (hquiet.done (i := 2)) rfl hrelease
    exact ⟨_, c', hreach, hstep, (repair_is_safe _ hreach).safe 3 repairCall c' hstep⟩

def approval : List Op :=
  [.createIntent 8 2 1 ['k'] .csv 10, .finalize 8 1 1 (some ⟨10, FileType.csv.contentType⟩),
    .startValidation 1 1, .finishValidation 1 passing none, .onValidationPassed 1,
    .approve ⟨9, .teacher⟩ 1]

/-- A claim waits while another one of the same assignment is made and abandoned; it then completes
the assignment, which is set to OCCUPIED by hand. -/
def stalledJobs : List Job :=
  [.op (.account 8 ⟨.student, .active⟩), .claim 8 1 2, .op (.tick 1), .claim 7 1 1,
    .op (.abandon (0, hours 24) 3 7 1)] ++ approval.map Job.op ++ [.occupy 1, .release repairCall]

def sampledState : State :=
  openingSite.state.run [.account 8 ⟨.student, .active⟩]

def overtakenState : State :=
  let s := sampledState.run [.tick 1]
  (s.commit (claimRandomAssignment s.db 1 7 1 1 (some 1))).run [.abandon (0, hours 24) 3 7 1]

def approvedState : State :=
  (overtakenState.commit (claimRandomAssignment overtakenState.db 0 8 1 2 (some 1))).run approval

def completedSite : Site where
  state := { approvedState with db := approvedState.db.setAvailability 1 ⟨1, .completed⟩ .occupied }
  audit := []

/-- The newest claim is the abandoned one, which was made before the completed one. -/
theorem completed_releasable : ∃ site', completedSite.release repairCall = .ok site' := by
  have hinactive : ¬ completedSite.db.claims.Any fun _ c =>
      c.assignmentId = 1 ∧ c.status.active = true := by decide +kernel
  have hnewest : completedSite.db.claims.Any fun k c => k = 1 ∧ c.assignmentId = 1 ∧
      c.claimedAt = 1 ∧ c.status.reassignExcluded = true := by decide +kernel
  have hothers : ¬ completedSite.db.claims.Any fun k c =>
      c.assignmentId = 1 ∧ k ≠ 1 ∧ ¬ c.claimedAt < 1 := by decide +kernel
  obtain ⟨_, c, hc, rfl, ha, ht, hback⟩ := hnewest
  have hlast : newestClaim completedSite.db 1 = some (1, c) := by
    refine newestClaim_eq hc ha fun k' c' hc' ha' hne => .inl ?_
    change c'.claimedAt < c.claimedAt
    rw [ht]
    by_contra hlate
    exact hothers ⟨k', c', hc', ha', hne, hlate⟩
  refine ⟨_, release_ok.mpr ⟨⟨1, .occupied⟩, some (1, c), requireOccupied_ok.mpr ⟨rfl,
    by decide +kernel, by decide +kernel, rfl⟩, requireUnbacked_ok.mpr fun k x hx hax => ?_,
    newestReleasable_ok.mpr ⟨hlast, fun k x h => ?_⟩, rfl⟩⟩
  · rw [← Bool.not_eq_true]
    exact fun hactive => hinactive ⟨k, x, hx, hax, hactive⟩
  · obtain ⟨_, rfl⟩ := Prod.mk.inj (Option.some.inj h)
    exact hback

theorem completed_backed : Backing completedSite.db 1 := by
  have hcompleted : completedSite.db.claims.Any fun _ c =>
      c.assignmentId = 1 ∧ c.status = .completed := by decide +kernel
  obtain ⟨k, c, hc, ha, hstatus⟩ := hcompleted
  exact ⟨k, c, hc, ha, .inr hstatus⟩

theorem approval_jobs (proc : ℕ → Worker) (hproc : ∀ i, 5 ≤ i → proc i = start stalledJobs i)
    (j : ℕ) (op : Op) (h : approval[j]? = some op) : proc (5 + j) = .called (.op op) ∧
      ∀ user task id choice, op ≠ .claim user task id choice := by
  rw [hproc (5 + j) (by omega)]
  match j, h with
  | 0, h | 1, h | 2, h | 3, h | 4, h | 5, h =>
    obtain rfl := Option.some.inj h
    exact ⟨rfl, fun _ _ _ _ h => by cases h⟩
  | j + 6, h => cases h

/-- Without the order of the claims a completed assignment is released. -/
theorem completed_released : ¬ ∀ c : Config ℕ Site Worker, (repairSystem ℕ).Reach c → SafeAt c := by
  intro h
  obtain ⟨hstart, hquiet⟩ := reach_start (fun _ _ => True) stalledJobs
  have haccount := reach_op (i := 0) (fun _ => trivial) (fun _ _ => trivial) hstart hquiet rfl
    fun _ _ _ _ h => by cases h
  have hquiet := hquiet.done (i := 0)
  have hsampled := reach_read (i := 1) (fun _ => trivial) haccount (fun j _ => hquiet j)
    (.sample 8 1 2 ⟨sampledState, []⟩)
  have hquiet : Quiet (Function.update _ 1 (.sampled 8 1 2 0)) := hquiet.update fun _ => id
  have htick := reach_op (i := 2) (fun _ => trivial) (fun _ _ => trivial) hsampled hquiet rfl
    fun _ _ _ _ h => by cases h
  have hquiet := hquiet.done (i := 2)
  have hother := reach_read (i := 3) (fun _ => trivial) htick (fun j _ => hquiet j)
    (.sample 7 1 1 ⟨sampledState.run [.tick 1], []⟩)
  have hquiet : Quiet (Function.update _ 3 (.sampled 7 1 1 1)) := hquiet.update fun _ => id
  have hmade := reach_claim (i := 3) (a := 1) (fun _ => trivial) (fun _ => trivial) hother hquiet
    (Function.update_self _ _ _) (by decide +kernel)
  have hquiet := hquiet.done (i := 3)
  have hovertaken := reach_op (i := 4) (fun _ => trivial) (fun _ _ => trivial) hmade hquiet rfl
    fun _ _ _ _ h => by cases h
  have hquiet := hquiet.done (i := 4)
  have hlate := reach_claim (i := 1) (a := 1) (fun _ => trivial) (fun _ => trivial) hovertaken
    hquiet rfl (by decide +kernel)
  have hquiet := hquiet.done (i := 1)
  obtain ⟨proc, happroved, hquiet, hsame⟩ := reach_ops (fun _ _ => trivial) (fun _ _ _ => trivial)
    hlate hquiet approval 5 (approval_jobs _ fun i hi => by
      repeat rw [Function.update_of_ne (by omega)])
  have hdangling := reach_occupy (i := 11) (a := 1) ⟨1, .completed⟩ (fun _ => trivial)
    (fun _ => trivial) happroved hquiet (hsame 11 (.inr (by decide))) (by decide +kernel)
  have hquiet := hquiet.done (i := 11)
  obtain ⟨site', hrelease⟩ := completed_releasable
  obtain ⟨proc', c', hreach, _, hstep⟩ := reach_release (i := 12) (fun _ => trivial) hdangling
    hquiet ((Function.update_of_ne (by decide) _ _).trans (hsame 12 (.inr (by decide)))) hrelease
  exact ((h _ hreach.of_guarded).safe 12 repairCall c' hstep).unbacked completed_backed

end Witness

end CampusQuest.Repairs
