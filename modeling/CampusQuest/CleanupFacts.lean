import CampusQuest.CleanupSystem

/-!
Two readings of the cleanup system. Its lifecycle part takes the steps of the lifecycle, so
every invariant of the lifecycle holds in it; and its leases with the workers that hold
tokens for them are the abstract lease machine. What the workers and the finalize calls
remember stays true meanwhile, because no row ever leaves or changes its object.
-/

namespace CampusQuest.Lifecycle

open Tables Runs System Leases

section Rows

variable {s : State} {op : Op}

def Op.makes : Op → Option Target
  | .createIntent _ _ id _ _ _ => some (.intent id)
  | .finalize _ _ id _ => some (.file id)
  | _ => none

theorem keyOf_apply (s : State) (op : Op) {t : Target} {key : Text}
    (h : s.db.keyOf t = some key) : (s.apply op).db.keyOf t = some key := by
  cases t with
  | file id =>
    obtain ⟨r, hr, rfl⟩ := Option.map_eq_some_iff.mp h
    obtain ⟨r', hr', hmove⟩ := (apply_effect s op).submission_move hr
    have hkey : r'.objectKey = r.objectKey := by
      cases hmove <;> rfl
    exact Option.map_eq_some_iff.mpr ⟨r', hr', hkey⟩
  | intent i =>
    obtain ⟨x, hx, rfl⟩ := Option.map_eq_some_iff.mp h
    obtain ⟨x', hx', hmove⟩ := (apply_effect s op).intent_move hx
    have hkey : x'.objectKey = x.objectKey := by
      cases hmove <;> rfl
    exact Option.map_eq_some_iff.mpr ⟨x', hx', hkey⟩

/-- Only the file cleanup writes the lease of a row that is there. -/
theorem lease_apply (hop : op.cleaning = false) {t : Target} {l : CleanupLease}
    (h : s.db.lease t = some l) : (s.apply op).db.lease t = some l := by
  cases t with
  | file id =>
    obtain ⟨r, hr, rfl⟩ := Option.map_eq_some_iff.mp h
    obtain ⟨r', hr', hmove⟩ := (apply_effect s op).submission_move hr
    have hlease : r'.lease = r.lease := by
      cases hmove with
      | cleaned => cases hop
      | same | started | finished | reviewed => rfl
    exact Option.map_eq_some_iff.mpr ⟨r', hr', hlease⟩
  | intent i =>
    obtain ⟨x, hx, rfl⟩ := Option.map_eq_some_iff.mp h
    obtain ⟨x', hx', hmove⟩ := (apply_effect s op).intent_move hx
    have hlease : x'.lease = x.lease := by
      cases hmove with
      | cleaned => cases hop
      | same | burned | finalized => rfl
    exact Option.map_eq_some_iff.mpr ⟨x', hx', hlease⟩

/-- A row that appears is the one the operation makes, and nobody has claimed it. -/
theorem lease_made {t : Target} {l : CleanupLease} (hnone : s.db.lease t = none)
    (h : (s.apply op).db.lease t = some l) : op.makes = some t ∧ l = .unclaimed := by
  cases t with
  | file id =>
    obtain ⟨r, hr, rfl⟩ := Option.map_eq_some_iff.mp h
    have hmade := (apply_effect s op).submission_made (Option.map_eq_none_iff.mp hnone) hr
    cases hmade
    exact ⟨rfl, rfl⟩
  | intent i =>
    obtain ⟨x, hx, rfl⟩ := Option.map_eq_some_iff.mp h
    have hmade := (apply_effect s op).intent_made (Option.map_eq_none_iff.mp hnone) hx
    cases hmade
    exact ⟨rfl, rfl⟩

/-- Rewriting a lease is a step that the lifecycle leaves to the file cleanup. -/
theorem modifyLease_apply (s : State) (t : Target) (f : CleanupLease → CleanupLease) :
    { s with db := s.db.modifyLease t f } = s ∨
      ∃ op, op.cleaning = true ∧ { s with db := s.db.modifyLease t f } = s.apply op := by
  cases hlease : s.db.lease t with
  | none =>
    rw [modifyLease_of_none hlease]
    exact Or.inl rfl
  | some l =>
    right
    cases t with
    | file id =>
      obtain ⟨r, hr, rfl⟩ := Option.map_eq_some_iff.mp hlease
      refine ⟨.cleanup id r.legalHold (f r.lease), rfl, ?_⟩
      rw [modifyLease_file hr]
      change _ = s.cleanup id r.legalHold (f r.lease)
      unfold State.cleanup
      simp only [hr]
      rfl
    | intent i =>
      obtain ⟨x, hx, rfl⟩ := Option.map_eq_some_iff.mp hlease
      refine ⟨.cleanupIntent i (f x.lease), rfl, ?_⟩
      rw [modifyLease_intent hx]
      change _ = s.cleanupIntent i (f x.lease)
      unfold State.cleanupIntent
      simp only [hx]

end Rows

/-- What every step of the lifecycle keeps of its rows and its clock. -/
structure Grows (s s' : State) : Prop where
  key : ∀ t key, s.db.keyOf t = some key → s'.db.keyOf t = some key
  claimId : ∀ i x, s.db.intents.get i = some x →
    ∃ x', s'.db.intents.get i = some x' ∧ x'.claimId = x.claimId
  now : s.now ≤ s'.now

theorem Grows.refl (s : State) : Grows s s := ⟨fun _ _ h => h, fun _ x h => ⟨x, h, rfl⟩, le_rfl⟩

theorem grows_apply (s : State) (op : Op) : Grows s (s.apply op) := by
  refine ⟨fun t key h => keyOf_apply s op h, fun i x hx => ?_, now_apply s op⟩
  obtain ⟨x', hx', hmove⟩ := (apply_effect s op).intent_move hx
  refine ⟨x', hx', ?_⟩
  cases hmove <;> rfl

def WorkerPhase.record : WorkerPhase → Option Record
  | .idle => none
  | .claimed record _ | .sent record _ | .answered record _ _ => some record

/-- What workers, calls and histories remember is true of the tables. -/
structure Remembered (w : World) : Prop where
  queued : ∀ k x record, w.workers.get k = some x → record ∈ x.queue → Listed w.life.db record
  working : ∀ k x record, w.workers.get k = some x → x.phase.record = some record →
    Listed w.life.db record
  clock : ∀ k x, w.workers.get k = some x → x.now ≤ w.life.now
  calls : ∀ c call, w.calls.get c = some call → ∃ intent,
    w.life.db.intents.get call.intentId = some intent ∧ intent.claimId = call.locator.claimId
  sent : ∀ record ∈ w.sent, Listed w.life.db record
  answers : ∀ a ∈ w.answers, Listed w.life.db a.record

section Steps

variable {w w' : World} {length : Duration} {a : Act}

/-- On a state whose calls are sound the locked section is an undivided finalize. -/
theorem Remembered.finalize_apply (hw : Remembered w) {c : CallId} {call : FinalizeCall}
    (hcall : w.calls.get c = some call) (id : SubmissionId) :
    w.life.commit (w.answer call id) =
      w.life.apply (.finalize call.user call.intentId id call.head) := by
  obtain ⟨intent, hintent, hclaim⟩ := hw.calls c call hcall
  unfold World.answer
  rw [finalizeLocated_eq hintent hclaim]
  rfl

/-- The lifecycle part of an act is a step of the lifecycle. -/
theorem Deed.life_cases (h : Deed length w a w') (hw : Remembered w) :
    w'.life = w.life ∨ ∃ op, w'.life = w.life.apply op := by
  have hmodify : ∀ (t : Target) (f : CleanupLease → CleanupLease),
      (w.setDb (w.life.db.modifyLease t f)).life = w.life ∨
        ∃ op, (w.setDb (w.life.db.modifyLease t f)).life = w.life.apply op := by
    intro t f
    rcases modifyLease_apply w.life t f with hsame | ⟨op, _, hop⟩
    · exact Or.inl hsame
    · exact Or.inr ⟨op, hop⟩
  cases h with
  | idle | started | waiting | sent | settled | dropped | peeked => exact Or.inl rfl
  | life op => exact Or.inr ⟨op, rfl⟩
  | held id hold r => exact Or.inr ⟨.cleanup id hold r.lease, rfl⟩
  | claimed => exact hmodify _ _
  | finished => exact hmodify _ _
  | released => exact hmodify _ _
  | finalized c id call hcall => exact Or.inr ⟨_, hw.finalize_apply hcall id⟩

theorem Deed.grows (h : Deed length w a w') (hw : Remembered w) : Grows w.life w'.life := by
  rcases h.life_cases hw with hsame | ⟨op, hop⟩
  · rw [hsame]
    exact Grows.refl w.life
  · rw [hop]
    exact grows_apply w.life op

namespace Remembered

/-- The lifecycle may go on while workers and calls wait. -/
theorem advance (hw : Remembered w) {s : State} (hgrows : Grows w.life s) :
    Remembered { w with life := s } := by
  refine ⟨fun k x record hx hmem => hgrows.key _ _ (hw.queued k x record hx hmem),
    fun k x record hx hrecord => hgrows.key _ _ (hw.working k x record hx hrecord),
    fun k x hx => (hw.clock k x hx).trans hgrows.now, fun c call hcall => ?_,
    fun record hmem => hgrows.key _ _ (hw.sent record hmem),
    fun a hmem => hgrows.key _ _ (hw.answers a hmem)⟩
  obtain ⟨intent, hintent, hclaim⟩ := hw.calls c call hcall
  obtain ⟨intent', hintent', hsame⟩ := hgrows.claimId _ intent hintent
  exact ⟨intent', hintent', hsame.trans hclaim⟩

/-- A worker may change into one whose records are listed. -/
theorem setWorker (hw : Remembered w) (k : WorkerId) {x : Worker}
    (hqueue : ∀ record ∈ x.queue, Listed w.life.db record)
    (hphase : ∀ record, x.phase.record = some record → Listed w.life.db record)
    (hnow : x.now ≤ w.life.now) : Remembered (w.setWorker k x) := by
  refine ⟨fun k' y record hy hmem => ?_, fun k' y record hy hrecord => ?_, fun k' y hy => ?_,
    hw.calls, hw.sent, hw.answers⟩
  · rcases Table.get_put_eq_some hy with ⟨_, rfl⟩ | ⟨_, hold⟩
    · exact hqueue record hmem
    · exact hw.queued k' y record hold hmem
  · rcases Table.get_put_eq_some hy with ⟨_, rfl⟩ | ⟨_, hold⟩
    · exact hphase record hrecord
    · exact hw.working k' y record hold hrecord
  · rcases Table.get_put_eq_some hy with ⟨_, rfl⟩ | ⟨_, hold⟩
    · exact hnow
    · exact hw.clock k' y hold

theorem dropWorker (hw : Remembered w) (k : WorkerId) : Remembered (w.dropWorker k) :=
  ⟨fun k' x record hx => hw.queued k' x record (Table.get_of_remove hx),
    fun k' x record hx => hw.working k' x record (Table.get_of_remove hx),
    fun k' x hx => hw.clock k' x (Table.get_of_remove hx), hw.calls, hw.sent, hw.answers⟩

end Remembered

theorem remembered_inductive (length : Duration) : (cleanup length).Inductive Remembered := by
  constructor
  · intro w hinit
    refine ⟨fun k x record hx => ?_, fun k x record hx => ?_, fun k x hx => ?_,
      fun c call hcall => ?_, fun record hmem => ?_, fun a hmem => ?_⟩
    · rw [hinit.workers, Table.get_empty] at hx
      cases hx
    · rw [hinit.workers, Table.get_empty] at hx
      cases hx
    · rw [hinit.workers, Table.get_empty] at hx
      cases hx
    · rw [hinit.calls, Table.get_empty] at hcall
      cases hcall
    · rw [hinit.sent] at hmem
      cases hmem
    · rw [hinit.answers] at hmem
      cases hmem
  · rintro w a _ hw rfl
    have hdeed := perform_deed length w a
    have hgrows := hdeed.grows hw
    generalize w.perform length a = w' at hdeed hgrows
    cases hdeed with
    | idle => exact hw
    | life op => exact hw.advance hgrows
    | held => exact hw.advance hgrows
    | released => exact hw.advance hgrows
    | started k hk =>
      refine hw.setWorker k (fun record hmem => ?_) (fun record hrecord => ?_) le_rfl
      · cases hmem
      · cases hrecord
    | waiting _ k x x' hx hidle hidle' hnow hqueue =>
      refine hw.setWorker k (fun record hmem => ?_) (fun record hrecord => ?_) ?_
      · rcases hqueue record hmem with hold | hlisted
        · exact hw.queued k x record hx hold
        · exact hlisted
      · rw [hidle'] at hrecord
        cases hrecord
      · rw [hnow]
        exact hw.clock k x hx
    | claimed k token x x' record hx hidle hnow hqueue hphase =>
      have hlisted : Listed w.life.db record :=
        hw.queued k x record hx (hqueue ▸ List.mem_cons_self)
      have hset := (hw.advance hgrows).setWorker k (x := x')
        (fun r hmem => hgrows.key _ _ (hw.queued k x r hx (hqueue ▸ List.mem_cons_of_mem _ hmem)))
        (fun r hr => by
          rw [hphase] at hr
          cases hr
          exact hgrows.key _ _ hlisted)
        (hnow ▸ hw.clock k x hx)
      exact ⟨hset.queued, hset.working, hset.clock, hset.calls, hset.sent, hset.answers⟩
    | sent k x record token hx hphase =>
      have hlisted : Listed w.life.db record := hw.working k x record hx (by rw [hphase]; rfl)
      have hset := hw.setWorker k (x := { x with phase := .sent record token })
        (fun r hmem => hw.queued k x r hx hmem)
        (fun r hr => by
          cases hr
          exact hlisted)
        (hw.clock k x hx)
      refine ⟨hset.queued, hset.working, hset.clock, hset.calls, fun r hmem => ?_, hset.answers⟩
      rcases List.mem_append.mp hmem with hold | hnew
      · exact hw.sent r hold
      · rw [List.mem_singleton.mp hnew]
        exact hlisted
    | settled k outcome x record token hx hphase =>
      have hlisted : Listed w.life.db record := hw.working k x record hx (by rw [hphase]; rfl)
      have hset := hw.setWorker k (x := { x with phase := .answered record token outcome })
        (fun r hmem => hw.queued k x r hx hmem)
        (fun r hr => by
          cases hr
          exact hlisted)
        (hw.clock k x hx)
      refine ⟨hset.queued, hset.working, hset.clock, hset.calls, hset.sent, fun a hmem => ?_⟩
      rcases List.mem_append.mp hmem with hold | hnew
      · exact hw.answers a hold
      · rw [List.mem_singleton.mp hnew]
        exact hlisted
    | finished k x x' record token outcome hx hphase hidle hqueue hnow =>
      refine (hw.advance hgrows).setWorker k (fun r hmem => ?_) (fun r hr => ?_) ?_
      · rw [hqueue] at hmem
        exact hgrows.key _ _ (hw.queued k x r hx hmem)
      · rw [hidle] at hr
        cases hr
      · rw [hnow]
        exact hw.clock k x hx
    | dropped _ k => exact hw.dropWorker k
    | peeked c user intentId head head' intent hintent =>
      refine ⟨hw.queued, hw.working, hw.clock, fun c' call hcall => ?_, hw.sent, hw.answers⟩
      rcases Table.get_put_eq_some hcall with ⟨_, rfl⟩ | ⟨_, hold⟩
      · exact ⟨intent, hintent, rfl⟩
      · exact hw.calls c' call hold
    | finalized c id call hcall =>
      have hnext := hw.advance hgrows
      exact ⟨hnext.queued, hnext.working, hnext.clock,
        fun c' call' hget => hnext.calls c' call' (Table.get_of_remove hget), hnext.sent, hnext.answers⟩

/-- The lifecycle part of a reachable state is a reachable state of the lifecycle. -/
theorem cleanup_refines_lifecycle (length : Duration) :
    Refines (cleanup length) lifecycle World.life := by
  constructor
  · intro w hinit
    exact hinit.life
  · rintro w a _ hw _ rfl
    have hremembered := (remembered_inductive length).reach hw
    exact (perform_deed length w a).life_cases hremembered

end Steps

/-- What an act does to the lease of a row that is there. Only the administrative release
takes the lease of a submission away. -/
inductive LeaseMove (w w' : World) (a : Act) (t : Target) (l : CleanupLease) :
    CleanupLease → Prop
  | same : LeaseMove w w' a t l l
  | taken (k : WorkerId) (x : Worker) (record : Record) (token : ℕ) (stop : Instant)
      (hx : w.workers.get k = some x) (hrecord : record.target = t)
      (hclaimable : Claimable w.life.db x.now record)
      (hclaims : w'.life.db.claims = w.life.db.claims) :
      LeaseMove w w' a t l (l.take x.now stop token)
  | finished (token : ℕ) (at' : Instant) (htoken : l.token = some token) :
      LeaseMove w w' a t l { l with doneAt := some at' }
  | released (i : IntentId) (token : ℕ) (ht : t = .intent i) (htoken : l.token = some token) :
      LeaseMove w w' a t l l.clear
  | repaired (record : FileRecord) (token : ℕ) (ha : a = .release record token)
      (ht : t = .file record.submissionId) (htoken : l.token = some token)
      (hopen : l.doneAt = none) :
      LeaseMove w w' a t l l.clear

section Moves

variable {w w' : World} {length : Duration} {a : Act} {t : Target} {l l' : CleanupLease}

theorem setDb_same {f : CleanupLease → CleanupLease} {t : Target}
    (h : ∀ row, w.life.db.lease t = some row → f row = row) :
    (w.setDb (w.life.db.modifyLease t f)).life = w.life := by
  rw [modifyLease_same h]
  rfl

theorem close_of_superseded {record : Record} {token : ℕ} {outcome : ProviderOutcome}
    {now : Instant} {row : CleanupLease} (h : row.token ≠ some token) :
    record.close token outcome now row = row := by
  unfold Record.close
  split
  next => exact Lease.finish_of_superseded h
  next =>
    cases record with
    | file => rfl
    | intent => exact Lease.release_of_superseded h

theorem lease_hold {s : State} {id : SubmissionId} {hold : Bool} {r : Submission}
    (hr : s.db.submissions.get id = some r) :
    (s.apply (.cleanup id hold r.lease)).db.lease = s.db.lease := by
  have happly : (s.apply (.cleanup id hold r.lease)).db =
      s.db.putSubmission id (r.cleaned hold r.lease) := by
    change (s.cleanup id hold r.lease).db = _
    unfold State.cleanup
    simp only [hr]
  rw [happly]
  funext u
  cases u with
  | intent i => rfl
  | file j =>
    simp only [Db.lease, Db.putSubmission, Table.get_put]
    by_cases hj : j = id
    · simp [hj, hr]
      rfl
    · simp [hj]

theorem Deed.lease_move (h : Deed length w a w') (hw : Remembered w)
    (hl : w.life.db.lease t = some l) :
    ∃ l', w'.life.db.lease t = some l' ∧ LeaseMove w w' a t l l' := by
  have hmodify : ∀ (u : Target) (f : CleanupLease → CleanupLease),
      (w.life.db.modifyLease u f).lease t = some (if t = u then f l else l) := by
    intro u f
    rw [lease_modifyLease]
    split
    next hu => rw [← hu, hl, Option.map_some]
    next => exact hl
  cases h with
  | idle | started | waiting | sent | settled | dropped | peeked => exact ⟨l, hl, .same⟩
  | life op hop => exact ⟨l, lease_apply hop hl, .same⟩
  | held id hold r hr =>
    refine ⟨l, ?_, .same⟩
    change (w.life.apply _).db.lease t = _
    rw [lease_hold hr, hl]
  | claimed k token x x' record hx _ _ _ _ _ hclaimable =>
    refine ⟨_, hmodify record.target _, ?_⟩
    split
    next ht =>
      exact .taken k x record token _ hx ht.symm hclaimable (modifyLease_claims _ _ _)
    next => exact .same
  | finished k x x' record token outcome =>
    refine ⟨_, hmodify record.target _, ?_⟩
    split
    next ht =>
      unfold Record.close
      split
      next =>
        rcases l.finish_cases token x.now with heq | ⟨htoken, _, heq⟩
        · rw [heq]
          exact .same
        · rw [heq]
          exact .finished token x.now htoken
      next =>
        cases record with
        | file r => exact .same
        | intent r =>
          rcases l.release_cases token with heq | ⟨htoken, heq⟩
          · dsimp only
            rw [heq]
            exact .same
          · dsimp only
            rw [heq]
            exact .released r.intentId token ht htoken
    next => exact .same
  | released record token =>
    refine ⟨_, hmodify (.file record.submissionId) _, ?_⟩
    split
    next ht =>
      rcases l.releaseOpen_cases token with heq | ⟨htoken, hopen, heq⟩
      · rw [heq]
        exact .same
      · rw [heq]
        exact .repaired record token rfl ht htoken hopen
    next => exact .same
  | finalized c id call hcall =>
    have hop : (Op.finalize call.user call.intentId id call.head).cleaning = false := rfl
    refine ⟨l, ?_, .same⟩
    change (w.life.commit (w.answer call id)).db.lease t = _
    rw [hw.finalize_apply hcall id]
    exact lease_apply hop hl

/-- A row that appears is unclaimed. -/
theorem Deed.lease_made (h : Deed length w a w') (hw : Remembered w)
    (hnone : w.life.db.lease t = none) (hl' : w'.life.db.lease t = some l') :
    l' = .unclaimed := by
  rcases h.life_cases hw with hsame | ⟨op, hop⟩
  · rw [hsame, hnone] at hl'
    cases hl'
  · rw [hop] at hl'
    exact (Lifecycle.lease_made hnone hl').2

end Moves

section Histories

/-- The opening state of the lifecycle, with nobody at work on the files. -/
def emptyWorld (base : ℤ) (hbase : 0 < base) : World where
  life := opening base hbase
  workers := .empty
  calls := .empty
  tokens := ∅
  sent := []
  answers := []

theorem emptyWorld_initial (base : ℤ) (hbase : 0 < base) : (emptyWorld base hbase).Initial :=
  ⟨opening_initial base hbase, rfl, rfl, rfl, rfl, rfl⟩

def World.run (length : Duration) (w : World) (acts : List Act) : World :=
  acts.foldl (World.perform length) w

def World.trace (length : Duration) (w : World) (acts : List Act) : List (World × Act × World) :=
  traceOf (World.perform length) w acts

theorem World.run_trace (length : Duration) (w : World) (acts : List Act) :
    (cleanup length).Run w (w.trace length acts) (w.run length acts) :=
  run_traceOf World.Initial (World.perform length) w acts

theorem reach_emptyWorld (length : Duration) (base : ℤ) (hbase : 0 < base) (acts : List Act) :
    (cleanup length).Reach ((emptyWorld base hbase).run length acts) :=
  (World.run_trace length _ acts).reach (.init (emptyWorld_initial base hbase))

end Histories

end CampusQuest.Lifecycle
