import CampusQuest.CleanupFacts

/-!
Fencing of the file cleanup. Submissions and intents share one lease discipline, so both are
rows of one lease machine, and what that machine guarantees of tokens and completions holds
of every run of the cleanup system.
-/

namespace CampusQuest.Lifecycle

open Tables Runs System Leases

/-- The token that a worker holds for its record, and how far its delete is. -/
def WorkerPhase.holding : WorkerPhase → Option (Holding Target ℕ)
  | .idle => none
  | .claimed record token => some ⟨record.target, token, .held⟩
  | .sent record token => some ⟨record.target, token, .sent⟩
  | .answered record token outcome =>
    some ⟨record.target, token, if outcome.gone then .gone else .failed⟩

/-- The rows whose object the provider has answered to be gone, each with the token of the
delete. -/
def settledUnder (answers : List ProviderAnswer) : Set (ℕ × Target) :=
  {e | ∃ a ∈ answers, a.token = e.1 ∧ a.record.target = e.2 ∧ a.outcome.gone = true}

theorem settledUnder_append (answers : List ProviderAnswer) (a : ProviderAnswer) :
    settledUnder (answers ++ [a]) = if a.outcome.gone = true then
      insert (a.token, a.record.target) (settledUnder answers) else settledUnder answers := by
  ext ⟨t, i⟩
  unfold settledUnder
  simp only [List.mem_append, List.mem_singleton, or_and_right, exists_or, Set.mem_ofPred_eq,
    exists_eq_left]
  by_cases hgone : a.outcome.gone = true
  · rw [if_pos hgone]
    simp only [hgone, and_true, Set.mem_insert_iff, Prod.mk.injEq, Set.mem_ofPred_eq]
    rw [or_comm, eq_comm (a := t), eq_comm (a := i)]
  · rw [if_neg hgone]
    simp [hgone]

def World.machine (w : World) : Leases.State Target WorkerId Instant ℕ where
  lease := w.life.db.lease
  holding := fun k => (w.workers.get k).bind fun x => x.phase.holding
  drawn := {t | t ∈ w.tokens}
  gone := settledUnder w.answers

section Machine

variable {w w' : World} {length : Duration} {a : Act}

theorem machine_holding {k : WorkerId} {x : Worker} (hx : w.workers.get k = some x) :
    w.machine.holding k = x.phase.holding := by
  change (w.workers.get k).bind _ = _
  rw [hx]
  rfl

theorem holding_setWorker (w : World) (k : WorkerId) (x : Worker) :
    (w.setWorker k x).machine.holding =
      Function.update w.machine.holding k x.phase.holding := by
  funext k'
  change ((w.workers.put k x).get k').bind _ = _
  rw [Table.get_put]
  by_cases hk : k' = k
  · subst hk
    rw [if_pos rfl, Function.update_self]
    rfl
  · rw [if_neg hk, Function.update_of_ne hk]
    rfl

theorem holding_dropWorker (w : World) (k : WorkerId) :
    (w.dropWorker k).machine.holding = Function.update w.machine.holding k none := by
  funext k'
  change ((w.workers.remove k).get k').bind _ = _
  rw [Table.get_remove]
  by_cases hk : k' = k
  · subst hk
    rw [if_pos rfl, Function.update_self]
    rfl
  · rw [if_neg hk, Function.update_of_ne hk]
    rfl

/-- Rewriting a lease changes one lease of the machine. -/
theorem lease_modify (db : Db) (t : Target) (f : CleanupLease → CleanupLease) :
    (db.modifyLease t f).lease = Function.update db.lease t ((db.lease t).map f) := by
  funext u
  rw [lease_modifyLease]
  by_cases hu : u = t
  · subst hu
    rw [if_pos rfl, Function.update_self]
  · rw [if_neg hu, Function.update_of_ne hu]

/-- An operation of the other services makes at most one row, which nobody has claimed. -/
theorem lease_cases {s : State} {op : Op} (hop : op.cleaning = false) :
    (s.apply op).db.lease = s.db.lease ∨ ∃ t, s.db.lease t = none ∧
      (s.apply op).db.lease = Function.update s.db.lease t (some .unclaimed) := by
  by_cases hmade : ∃ t, s.db.lease t = none ∧ (s.apply op).db.lease t ≠ none
  · obtain ⟨t, hnone, hsome⟩ := hmade
    obtain ⟨l, hl⟩ := Option.ne_none_iff_exists'.mp hsome
    obtain ⟨ht, rfl⟩ := lease_made hnone hl
    refine Or.inr ⟨t, hnone, ?_⟩
    funext u
    by_cases hu : u = t
    · subst hu
      rw [Function.update_self, hl]
    · rw [Function.update_of_ne hu]
      cases hold : s.db.lease u with
      | some l => exact lease_apply hop hold
      | none =>
        cases hnew : (s.apply op).db.lease u with
        | none => rfl
        | some l =>
          obtain ⟨hu', _⟩ := lease_made hold hnew
          rw [ht, Option.some.injEq] at hu'
          exact absurd hu'.symm hu
  · left
    funext u
    cases hold : s.db.lease u with
    | some l => exact lease_apply hop hold
    | none =>
      by_contra hsome
      exact hmade ⟨u, hold, fun h => hsome h⟩

/-- The machine depends on the leases, the workers' tokens and the two histories. -/
theorem machine_eq (hlease : w'.life.db.lease = w.life.db.lease)
    (hholding : w'.machine.holding = w.machine.holding) (htokens : w'.tokens = w.tokens)
    (hanswers : w'.answers = w.answers) : w'.machine = w.machine := by
  apply Leases.State.ext
  · exact hlease
  · exact hholding
  · unfold World.machine
    rw [htokens]
  · unfold World.machine
    rw [hanswers]

/-- A step of another service makes a row of the machine or leaves the machine as it is. -/
theorem machine_apply {op : Op} (hop : op.cleaning = false)
    (hlife : w'.life = w.life.apply op) (hworkers : w'.workers = w.workers)
    (htokens : w'.tokens = w.tokens) (hanswers : w'.answers = w.answers) :
    w'.machine = w.machine ∨
      ∃ e, (Leases.machine Target WorkerId Instant ℕ).step w.machine e w'.machine := by
  have hholding : w'.machine.holding = w.machine.holding := by
    unfold World.machine
    rw [hworkers]
  rcases @lease_cases w.life op hop with hsame | ⟨t, hnone, hmade⟩
  · left
    refine machine_eq ?_ hholding htokens hanswers
    rw [hlife, hsame]
  · right
    have hnext : w'.machine =
        { w.machine with lease := Function.update w.machine.lease t (some .unclaimed) } := by
      apply Leases.State.ext
      · change w'.life.db.lease = _
        rw [hlife, hmade]
        rfl
      · exact hholding
      · unfold World.machine
        rw [htokens]
      · unfold World.machine
        rw [hanswers]
    rw [hnext]
    exact ⟨_, .appear t hnone⟩

/-- A step that rewrites one lease and sets one worker. -/
theorem machine_modify (t : Target) (f : CleanupLease → CleanupLease) (k : WorkerId) (x : Worker)
    (hlife : w'.life.db = w.life.db.modifyLease t f) (hworkers : w'.workers = w.workers.put k x)
    (hanswers : w'.answers = w.answers) :
    w'.machine = { (w.machine.modify t f).setHolding k x.phase.holding with
      drawn := {u | u ∈ w'.tokens} } := by
  apply Leases.State.ext
  · change w'.life.db.lease = _
    rw [hlife, lease_modify]
    rfl
  · have hset : w'.machine.holding = (w.setWorker k x).machine.holding := by
      unfold World.machine World.setWorker
      rw [hworkers]
    rw [hset, holding_setWorker]
    rfl
  · rfl
  · unfold World.machine
    rw [hanswers]
    rfl

theorem exists_step {s t t' : Leases.State Target WorkerId Instant ℕ}
    {e : Leases.Event Target WorkerId ℕ} (h : Leases.Step s e t) (heq : t' = t) :
    ∃ e, (Leases.machine Target WorkerId Instant ℕ).step s e t' := by
  rw [heq]
  exact ⟨e, h⟩

/-- Every act is a step of the lease machine or leaves it as it is. -/
theorem Deed.machine_cases (h : Deed length w a w') (hw : Remembered w) :
    w'.machine = w.machine ∨
      ∃ e, (Leases.machine Target WorkerId Instant ℕ).step w.machine e w'.machine := by
  cases h with
  | idle => exact Or.inl rfl
  | life op hop => exact machine_apply hop rfl rfl rfl rfl
  | held id hold r hr => exact Or.inl (machine_eq (lease_hold hr) rfl rfl rfl)
  | started k hk =>
    left
    refine machine_eq rfl ?_ rfl rfl
    have hnone : w.machine.holding k = (Worker.start w.life.now).phase.holding := by
      change (w.workers.get k).bind _ = _
      rw [hk]
      rfl
    rw [holding_setWorker, ← hnone, Function.update_eq_self]
  | waiting _ k x x' hx hidle hidle' =>
    left
    refine machine_eq rfl ?_ rfl rfl
    have hsame : w.machine.holding k = x'.phase.holding := by
      rw [machine_holding hx, hidle, hidle']
    rw [holding_setWorker, ← hsame, Function.update_eq_self]
  | claimed k token x x' record hx hidle hnow hqueue hphase hfresh hclaimable =>
    right
    have hlisted := hw.queued k x record hx (hqueue ▸ List.mem_cons_self)
    have hthere : ∃ l, w.life.db.lease record.target = some l := by
      cases record with
      | file r =>
        obtain ⟨s, hs, _⟩ := Option.map_eq_some_iff.mp hlisted
        exact ⟨s.lease, Option.map_eq_some_iff.mpr ⟨s, hs, rfl⟩⟩
      | intent r =>
        obtain ⟨i, hi, _⟩ := Option.map_eq_some_iff.mp hlisted
        exact ⟨i.lease, Option.map_eq_some_iff.mpr ⟨i, hi, rfl⟩⟩
    obtain ⟨l, hl⟩ := hthere
    have hnone : w.machine.holding k = none := by
      rw [machine_holding hx, hidle]
      rfl
    have htokens : {u | u ∈ insert token w.tokens} = insert token {u | u ∈ w.tokens} := by
      ext u
      simp
    refine exists_step (.take k record.target token x.now (x.now + length) l hl
      (claimable_deletedAt hclaimable hl) hnone hfresh) ?_
    refine Eq.trans (machine_modify (w := w) record.target
      (fun l => l.take x.now (x.now + length) token) k x' ?_ ?_ ?_) ?_
    iterate 3 rfl
    rw [hphase]
    change { (w.machine.modify _ _).setHolding k _ with
      drawn := {u | u ∈ insert token w.tokens} } = _
    rw [htokens]
    rfl
  | sent k x record token hx hphase =>
    right
    have hheld : w.machine.holding k = some ⟨record.target, token, .held⟩ := by
      rw [machine_holding hx, hphase]
      rfl
    refine exists_step (.send k _ hheld rfl) ?_
    apply Leases.State.ext
    · rfl
    · exact holding_setWorker w k { x with phase := .sent record token }
    · rfl
    · rfl
  | settled k outcome x record token hx hphase =>
    right
    have hheld : w.machine.holding k = some ⟨record.target, token, .sent⟩ := by
      rw [machine_holding hx, hphase]
      rfl
    refine exists_step (.settle k _ outcome.gone hheld rfl) ?_
    apply Leases.State.ext
    · rfl
    · exact holding_setWorker w k { x with phase := .answered record token outcome }
    · rfl
    · exact settledUnder_append _ _
  | finished k x x' record token outcome hx hphase hidle =>
    right
    have hheld : w.machine.holding k =
        some ⟨record.target, token, if outcome.gone then .gone else .failed⟩ := by
      rw [machine_holding hx, hphase]
      rfl
    have hnext : ((w.setDb (w.life.db.modifyLease record.target
        (record.close token outcome x.now))).setWorker k x').machine =
          (w.machine.modify record.target (record.close token outcome x.now)).setHolding k none := by
      refine Eq.trans (machine_modify (w := w) record.target
        (record.close token outcome x.now) k x' ?_ ?_ ?_) ?_
      iterate 3 rfl
      rw [hidle]
      rfl
    rw [hnext]
    by_cases hgone : outcome.gone = true
    · have hclose : record.close token outcome x.now = fun l => l.finish token x.now := by
        funext l
        exact if_pos hgone
      rw [hclose]
      exact ⟨.finish k, .finish k _ x.now hheld (if_pos hgone)⟩
    · rw [Bool.not_eq_true] at hgone
      cases record with
      | file r =>
        have hclose : (Record.file r).close token outcome x.now = fun l => l := by
          funext l
          exact close_file_failed hgone l
        have hsame : (w.machine.modify (Record.file r).target fun l => l) = w.machine := by
          unfold Leases.State.modify
          rw [Option.map_id', Function.update_eq_self]
        rw [hclose, hsame]
        exact ⟨.drop k, .drop k⟩
      | intent r =>
        have hclose : (Record.intent r).close token outcome x.now = fun l => l.release token := by
          funext l
          unfold Record.close
          simp [hgone]
        rw [hclose]
        exact ⟨.release k, .release k _ hheld (by simp [hgone])⟩
  | dropped _ k =>
    right
    refine exists_step (.drop k) ?_
    apply Leases.State.ext
    · rfl
    · exact holding_dropWorker w k
    · rfl
    · rfl
  | released record token =>
    right
    refine exists_step (.repair (.file record.submissionId) token) ?_
    apply Leases.State.ext
    · exact lease_modify _ _ _
    · rfl
    · rfl
    · rfl
  | peeked => exact Or.inl rfl
  | finalized c id call hcall =>
    have hfinalize : (Op.finalize call.user call.intentId id call.head).cleaning = false := rfl
    exact machine_apply hfinalize (hw.finalize_apply hcall id) rfl rfl rfl

theorem cleanup_refines_machine (length : Duration) :
    Refines (cleanup length) (Leases.machine Target WorkerId Instant ℕ) World.machine := by
  constructor
  · intro w hinit
    refine ⟨fun k => ?_, fun t l hl => ?_, ?_⟩
    · change (w.workers.get k).bind _ = none
      rw [hinit.workers, Table.get_empty]
      rfl
    · cases t with
      | file id =>
        have hget : (w.life.db.submissions.get id).map Submission.lease = some l := hl
        rw [hinit.life.submissions, Table.get_empty] at hget
        cases hget
      | intent i =>
        have hget : (w.life.db.intents.get i).map UploadIntent.lease = some l := hl
        rw [hinit.life.intents, Table.get_empty] at hget
        cases hget
    · change settledUnder w.answers = ∅
      rw [hinit.answers]
      unfold settledUnder
      simp
  · rintro w a _ hw _ rfl
    exact (perform_deed length w a).machine_cases ((remembered_inductive length).reach hw)

end Machine

def Act.worker : Act → Option WorkerId
  | .start k | .collectFiles k _ | .collectIntents k _ | .next k _ | .send k | .settle k _
  | .finish k | .crash k => some k
  | .life _ | .hold _ _ | .release _ _ | .peek _ _ _ _ | .finalize _ _ => none

/-- The worker holds a token that its row does not carry any more. -/
def World.Superseded (w : World) (k : WorkerId) : Prop :=
  ∃ x h l, w.workers.get k = some x ∧ x.phase.holding = some h ∧
    w.life.db.lease h.row = some l ∧ l.token ≠ some h.token

structure CleanupFenced (w : World) (l : List (World × Act × World)) (w' : World) : Prop where
  superseded : ∀ t row token, w.life.db.lease t = some row → token ∈ w.tokens →
    row.token ≠ some token → ∃ row', w'.life.db.lease t = some row' ∧ row'.token ≠ some token
  stale : ∀ e ∈ l, ∀ k, e.2.1.worker = some k → e.1.Superseded k → e.2.2.life = e.1.life
  staleRelease : ∀ e ∈ l, ∀ record token row, e.2.1 = .release record token →
    e.1.life.db.lease (.file record.submissionId) = some row → row.token ≠ some token →
      e.2.2.life = e.1.life
  once : ∀ t row, w.life.db.lease t = some row → row.doneAt ≠ none →
    w'.life.db.lease t = some row
  settled : ∀ t row, w'.life.db.lease t = some row → row.doneAt ≠ none →
    ∃ a ∈ w'.answers, row.token = some a.token ∧ a.record.target = t ∧
      w'.life.db.keyOf t = some a.record.objectKey ∧ a.outcome.gone = true
  failed : ∀ e ∈ l, ∀ k x record token outcome, e.2.1 = .finish k → e.1.workers.get k = some x →
    x.phase = .answered record token outcome → outcome.gone = false → e.2.2.life = e.1.life ∨
      ∃ row, e.1.life.db.lease record.target = some row ∧ row.token = some token ∧
        e.2.2.life.db = e.1.life.db.modifyLease record.target Lease.clear

section Fencing

variable {w w' : World} {length : Duration} {a : Act} {l : List (World × Act × World)}

/-- A worker that was fenced out writes nothing. -/
theorem Deed.stale (h : Deed length w a w') {k : WorkerId} (hk : a.worker = some k)
    (hsuperseded : w.Superseded k) : w'.life = w.life := by
  obtain ⟨x, held, row, hx, hheld, hrow, htoken⟩ := hsuperseded
  cases h with
  | idle | started | waiting | sent | settled | dropped | peeked => rfl
  | life | held | released | finalized => cases hk
  | claimed k' token y y' record hy hidle =>
    cases hk
    rw [hx] at hy
    cases hy
    rw [hidle] at hheld
    cases hheld
  | finished k' y y' record token outcome hy hphase =>
    cases hk
    rw [hx] at hy
    cases hy
    rw [hphase] at hheld
    cases hheld
    refine setDb_same fun row' hrow' => ?_
    rw [hrow] at hrow'
    cases hrow'
    exact close_of_superseded htoken

theorem Deed.failed {k : WorkerId} (h : Deed length w (.finish k) w') {x : Worker} {record : Record} {token : ℕ}
    {outcome : ProviderOutcome} (hx : w.workers.get k = some x)
    (hphase : x.phase = .answered record token outcome) (hfailed : outcome.gone = false) :
    w'.life = w.life ∨ ∃ row, w.life.db.lease record.target = some row ∧
      row.token = some token ∧ w'.life.db = w.life.db.modifyLease record.target Lease.clear := by
  cases h with
  | idle | waiting | dropped => exact Or.inl rfl
  | finished _ y y' record' token' outcome' hy hphase' =>
    rw [hx] at hy
    cases hy
    rw [hphase] at hphase'
    cases hphase'
    have hclose : ∀ row, record.close token outcome x.now row = row ∨ (row.token = some token ∧
        record.close token outcome x.now row = row.clear) := by
      intro row
      unfold Record.close
      rw [if_neg (by simp [hfailed])]
      cases record with
      | file => exact Or.inl rfl
      | intent => exact row.release_cases token
    cases hrow : w.life.db.lease record.target with
    | none =>
      left
      refine setDb_same fun row hrow' => ?_
      rw [hrow] at hrow'
      cases hrow'
    | some row =>
      rcases hclose row with hsame | ⟨htoken, hclear⟩
      · left
        refine setDb_same fun row' hrow' => ?_
        rw [hrow] at hrow'
        cases hrow'
        exact hsame
      · right
        refine ⟨row, rfl, htoken, ?_⟩
        change w.life.db.modifyLease _ _ = _
        refine modifyLease_congr fun row' hrow' => ?_
        rw [hrow] at hrow'
        cases hrow'
        exact hclear

/-- Work that is done was answered to be gone under the token of the row, for the object of
the row. -/
theorem settled_answer (hw : (cleanup length).Reach w) {t : Target} {row : CleanupLease}
    (hrow : w.life.db.lease t = some row) (hdone : row.doneAt ≠ none) :
    ∃ a ∈ w.answers, row.token = some a.token ∧ a.record.target = t ∧
      w.life.db.keyOf t = some a.record.objectKey ∧ a.outcome.gone = true := by
  have hfenced := (cleanup_refines_machine length).invariant Leases.fenced_inductive hw
  obtain ⟨token, htoken, a, hmem, rfl, rfl, hgone⟩ := hfenced.done t row hrow hdone
  exact ⟨a, hmem, htoken, rfl, ((remembered_inductive length).reach hw).answers a hmem, hgone⟩

/-- Cleanup fencing, along every run from every reachable state: a superseded token stays
superseded and its holder writes nothing, a completion is written once and only after the
object was answered to be gone under the row's own token, and a failed delete releases at
most the worker's own claim. -/
theorem cleanup_fencing (hw : (cleanup length).Reach w) (hrun : (cleanup length).Run w l w') :
    CleanupFenced w l w' := by
  have hrefines := cleanup_refines_machine length
  have hsteps : ∀ e ∈ l, e.2.2 = e.1.perform length e.2.1 := by
    rintro ⟨u, a, u'⟩ hmem
    exact (hrun.step_mem hmem).1
  refine ⟨fun t row token hrow htoken hne => ?_, fun e he k hk hsuperseded => ?_,
    fun e he record token row hact hrow hne => ?_, fun t row hrow hdone => ?_,
    fun t row hrow hdone => settled_answer (hrun.reach hw) hrow hdone,
    fun e he k x record token outcome hact hx hphase hfailed => ?_⟩
  · have hkept := hrefines.keeps
      (P := fun m => ∃ row, m.lease t = some row ∧ row.token ≠ some token ∧ token ∈ m.drawn)
      (fun m e m' hm hbefore hstep => ?_) hw hrun ⟨row, hrow, hne, htoken⟩
    · obtain ⟨row', hrow', hne', _⟩ := hkept
      exact ⟨row', hrow', hne'⟩
    · obtain ⟨row, hrow, hne, htoken⟩ := hbefore
      obtain ⟨row', hrow', hne'⟩ :=
        Leases.Step.superseded hstep (Leases.fenced_inductive.reach hm) hrow htoken hne
      exact ⟨row', hrow', hne', Leases.Step.drawn hstep htoken⟩
  · rw [hsteps e he]
    exact (perform_deed length e.1 e.2.1).stale hk hsuperseded
  · rw [hsteps e he, hact]
    refine setDb_same fun row' hrow' => ?_
    rw [hrow] at hrow'
    cases hrow'
    rcases row.releaseOpen_cases token with hsame | ⟨htoken, _⟩
    · exact hsame
    · exact absurd htoken hne
  · exact hrefines.keeps (P := fun m => m.lease t = some row)
      (fun m e m' hm hbefore hstep => Leases.Step.done hstep (Leases.fenced_inductive.reach hm)
        hbefore hdone) hw hrun hrow
  · rw [hsteps e he]
    have hdeed := perform_deed length e.1 e.2.1
    rw [hact] at hdeed ⊢
    exact hdeed.failed hx hphase hfailed

end Fencing

section Example

/-- A worker claims a due file, its lease expires, and a second worker takes the file over. -/
def takenOver : List Act :=
  [.life (.claim 7 1 1 (some 1))] ++ (submits 1 [1]).map .life ++
    [.life (.tick (hours (24 * 31))), .start 1, .collectFiles 1 500, .next 1 100,
      .life (.tick (hours (24 * 32))), .start 2, .collectFiles 2 500, .next 2 200]

/-- The first worker comes back and is fenced out, then the second one finds nothing. -/
def fencedOut : List Act :=
  [.send 1, .settle 1 .deleted, .finish 1, .send 2, .settle 2 .missing, .finish 2]

theorem cleanup_fencing_takenOver :
    let w := (emptyWorld 50 (by decide)).run (hours 1) takenOver
    let w' := w.run (hours 1) fencedOut
    (((w.life.db.lease (.file 1)).bind Lease.token = some 200 ∧ 100 ∈ w.tokens) ∧
      (w'.life.db.lease (.file 1)).bind Lease.doneAt = some (hours (24 * 32)) ∧
      (w'.workers.get 1).map Worker.files = some [.deleted] ∧
      (w'.workers.get 2).map Worker.files = some [.reconciledMissing]) ∧
      CleanupFenced w (w.trace (hours 1) fencedOut) w' :=
  ⟨by decide +kernel, cleanup_fencing (reach_emptyWorld _ 50 (by decide) takenOver)
    (World.run_trace _ _ _)⟩

end Example

end CampusQuest.Lifecycle
