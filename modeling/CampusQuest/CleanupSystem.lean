import CampusQuest.CleanupWorkers

/-!
The claim lifecycle together with the parties that act on the object store: any number of
cleanup workers, each of which may stop for ever after any step, and finalize calls cut
between their unlocked read and their locked section. The object store answers as it likes.
`tokens`, `sent` and `answers` remember the tokens handed out, the DELETE requests sent and
the provider's answers; no service reads them.
-/

namespace CampusQuest.Lifecycle

open Tables Runs System

abbrev WorkerId := ℕ
abbrev CallId := ℕ

/-- A finalize between its unlocked read and its locked section. -/
structure FinalizeCall where
  user : UserId
  intentId : IntentId
  locator : IntentLocator
  head : Option ObjectHead
  deriving DecidableEq

structure ProviderAnswer where
  token : ℕ
  record : Record
  outcome : ProviderOutcome
  deriving DecidableEq

structure World where
  life : State
  workers : Table WorkerId Worker
  calls : Table CallId FinalizeCall
  tokens : Finset ℕ
  sent : List Record
  answers : List ProviderAnswer

inductive Act
  | life (op : Op)
  | hold (id : SubmissionId) (hold : Bool)
  | start (k : WorkerId)
  | collectFiles (k : WorkerId) (limit : ℕ)
  | collectIntents (k : WorkerId) (limit : ℕ)
  | next (k : WorkerId) (token : ℕ)
  | send (k : WorkerId)
  | settle (k : WorkerId) (outcome : ProviderOutcome)
  | finish (k : WorkerId)
  | crash (k : WorkerId)
  | release (record : FileRecord) (token : ℕ)
  | peek (c : CallId) (user : UserId) (intentId : IntentId) (head : Option ObjectHead)
  | finalize (c : CallId) (id : SubmissionId)

/-- The operations through which the lifecycle lets the file cleanup write. -/
def Op.cleaning : Op → Bool
  | .cleanup _ _ _ | .cleanupIntent _ _ => true
  | _ => false

namespace World

def setDb (w : World) (db : Db) : World := { w with life := { w.life with db := db } }

def setWorker (w : World) (k : WorkerId) (x : Worker) : World :=
  { w with workers := w.workers.put k x }

def dropWorker (w : World) (k : WorkerId) : World := { w with workers := w.workers.remove k }

def collect (w : World) (k : WorkerId) (records : Worker → List Record) : World :=
  match w.workers.get k with
  | none => w
  | some x =>
    if x.phase = .idle ∧ x.queue = [] then w.setWorker k { x with queue := records x } else w

def next (w : World) (leaseLength : Duration) (k : WorkerId) (token : ℕ) : World :=
  match w.workers.get k with
  | none => w
  | some x =>
    if token ∈ w.tokens then w
    else
      match x.next w.life.db leaseLength token with
      | none => w
      | some (x', db) =>
        if x'.phase = .idle then w.setWorker k x'
        else { (w.setDb db).setWorker k x' with tokens := insert token w.tokens }

def send (w : World) (k : WorkerId) : World :=
  match w.workers.get k with
  | none => w
  | some x =>
    match x.phase with
    | .claimed record token =>
      { w.setWorker k { x with phase := .sent record token } with sent := w.sent ++ [record] }
    | _ => w

def settle (w : World) (k : WorkerId) (outcome : ProviderOutcome) : World :=
  match w.workers.get k with
  | none => w
  | some x =>
    match x.phase with
    | .sent record token =>
      { w.setWorker k { x with phase := .answered record token outcome } with
        answers := w.answers ++ [⟨token, record, outcome⟩] }
    | _ => w

def finish (w : World) (k : WorkerId) : World :=
  match w.workers.get k with
  | none => w
  | some x =>
    match x.finish w.life.db with
    | none => w.dropWorker k
    | some (x', db) => (w.setDb db).setWorker k x'

/-- The object store is asked only about an intent that is not finalized yet. -/
def peek (w : World) (c : CallId) (user : UserId) (intentId : IntentId)
    (head : Option ObjectHead) : World :=
  match w.calls.get c, w.life.db.intents.get intentId with
  | none, some intent =>
    { w with
      calls := w.calls.put c ⟨user, intentId, intent.locator,
        if intent.finalizedSubmissionId.isNone then head else none⟩ }
  | _, _ => w

def answer (w : World) (call : FinalizeCall) (id : SubmissionId) :
    Answer (Except LifecycleError Submission × Db) :=
  finalizeLocated w.life.db w.life.now call.user call.intentId call.locator id call.head

def finalize (w : World) (c : CallId) (id : SubmissionId) : World :=
  match w.calls.get c with
  | none => w
  | some call =>
    { w with life := w.life.commit (w.answer call id), calls := w.calls.remove c }

def perform (leaseLength : Duration) (w : World) : Act → World
  | .life op => if op.cleaning = true then w else { w with life := w.life.apply op }
  | .hold id hold =>
    match w.life.db.submissions.get id with
    | none => w
    | some s => { w with life := w.life.apply (.cleanup id hold s.lease) }
  | .start k =>
    match w.workers.get k with
    | none => w.setWorker k (.start w.life.now)
    | some _ => w
  | .collectFiles k limit =>
    w.collect k fun x => (collectDueFiles w.life.db x.now limit).map .file
  | .collectIntents k limit =>
    w.collect k fun x => (collectDueIntents w.life.db x.now limit).map .intent
  | .next k token => w.next leaseLength k token
  | .send k => w.send k
  | .settle k outcome => w.settle k outcome
  | .finish k => w.finish k
  | .crash k => w.dropWorker k
  | .release record token => w.setDb (releaseCleanupClaim w.life.db record token)
  | .peek c user intentId head => w.peek c user intentId head
  | .finalize c id => w.finalize c id

/-- No worker and no call is under way at first. -/
structure Initial (w : World) : Prop where
  life : Lifecycle.Initial w.life
  workers : w.workers = .empty
  calls : w.calls = .empty
  tokens : w.tokens = ∅
  sent : w.sent = []
  answers : w.answers = []

end World

def cleanup (leaseLength : Duration) : System World Act where
  init := World.Initial
  step w a w' := w' = w.perform leaseLength a

def Listed (db : Db) (record : Record) : Prop := db.keyOf record.target = some record.objectKey

inductive Deed (leaseLength : Duration) (w : World) : Act → World → Prop
  | idle (a : Act) : Deed leaseLength w a w
  | life (op : Op) (hop : op.cleaning = false) :
      Deed leaseLength w (.life op) { w with life := w.life.apply op }
  | held (id : SubmissionId) (hold : Bool) (s : Submission)
      (hs : w.life.db.submissions.get id = some s) :
      Deed leaseLength w (.hold id hold) { w with life := w.life.apply (.cleanup id hold s.lease) }
  | started (k : WorkerId) (hk : w.workers.get k = none) :
      Deed leaseLength w (.start k) (w.setWorker k (.start w.life.now))
  | waiting (a : Act) (k : WorkerId) (x x' : Worker) (hx : w.workers.get k = some x)
      (hidle : x.phase = .idle) (hidle' : x'.phase = .idle) (hnow : x'.now = x.now)
      (hqueue : ∀ record ∈ x'.queue, record ∈ x.queue ∨ Listed w.life.db record) :
      Deed leaseLength w a (w.setWorker k x')
  | claimed (k : WorkerId) (token : ℕ) (x x' : Worker) (record : Record)
      (hx : w.workers.get k = some x) (hidle : x.phase = .idle) (hnow : x'.now = x.now)
      (hqueue : record :: x'.queue = x.queue) (hphase : x'.phase = .claimed record token)
      (hfresh : token ∉ w.tokens) (hclaimable : Claimable w.life.db x.now record) :
      Deed leaseLength w (.next k token) { (w.setDb (w.life.db.modifyLease record.target fun l =>
        l.take x.now (x.now + leaseLength) token)).setWorker k x' with
          tokens := insert token w.tokens }
  | sent (k : WorkerId) (x : Worker) (record : Record) (token : ℕ)
      (hx : w.workers.get k = some x) (hphase : x.phase = .claimed record token) :
      Deed leaseLength w (.send k) { w.setWorker k { x with phase := .sent record token } with
        sent := w.sent ++ [record] }
  | settled (k : WorkerId) (outcome : ProviderOutcome) (x : Worker) (record : Record) (token : ℕ)
      (hx : w.workers.get k = some x) (hphase : x.phase = .sent record token) :
      Deed leaseLength w (.settle k outcome)
        { w.setWorker k { x with phase := .answered record token outcome } with
          answers := w.answers ++ [⟨token, record, outcome⟩] }
  | finished (k : WorkerId) (x x' : Worker) (record : Record) (token : ℕ)
      (outcome : ProviderOutcome) (hx : w.workers.get k = some x)
      (hphase : x.phase = .answered record token outcome) (hidle : x'.phase = .idle)
      (hqueue : x'.queue = x.queue) (hnow : x'.now = x.now) :
      Deed leaseLength w (.finish k) ((w.setDb (w.life.db.modifyLease record.target
        (record.close token outcome x.now))).setWorker k x')
  | dropped (a : Act) (k : WorkerId) : Deed leaseLength w a (w.dropWorker k)
  | released (record : FileRecord) (token : ℕ) :
      Deed leaseLength w (.release record token)
        (w.setDb (releaseCleanupClaim w.life.db record token))
  | peeked (c : CallId) (user : UserId) (intentId : IntentId) (head head' : Option ObjectHead)
      (intent : UploadIntent) (hintent : w.life.db.intents.get intentId = some intent) :
      Deed leaseLength w (.peek c user intentId head)
        { w with calls := w.calls.put c ⟨user, intentId, intent.locator, head'⟩ }
  | finalized (c : CallId) (id : SubmissionId) (call : FinalizeCall)
      (hcall : w.calls.get c = some call) :
      Deed leaseLength w (.finalize c id)
        { w with life := w.life.commit (w.answer call id), calls := w.calls.remove c }

section Inversion

variable {w : World} {length : Duration}

theorem collect_deed (a : Act) (k : WorkerId) (records : Worker → List Record)
    (h : ∀ x, ∀ record ∈ records x, Listed w.life.db record) :
    Deed length w a (w.collect k records) := by
  unfold World.collect
  split
  next => exact .idle a
  next x hx =>
    split
    next hwait =>
      exact .waiting a k x _ hx hwait.1 hwait.1 rfl fun record hmem => Or.inr (h x record hmem)
    next => exact .idle a

theorem next_deed (k : WorkerId) (token : ℕ) :
    Deed length w (.next k token) (w.next length k token) := by
  unfold World.next
  split
  next => exact .idle _
  next x hx =>
    split
    next => exact .idle _
    next hfresh =>
      split
      next => exact .idle _
      next x' db hnext =>
        obtain ⟨hidle, hnow, record, hqueue, hcases⟩ := Worker.next_eq_some hnext
        rcases hcases with ⟨hphase, rfl⟩ | ⟨hphase, hclaimable, rfl⟩
        · rw [if_pos hphase]
          refine .waiting _ k x x' hx hidle hphase hnow fun r hr => Or.inl ?_
          rw [← hqueue]
          exact List.mem_cons_of_mem _ hr
        · rw [if_neg (by rw [hphase]; exact fun h => by cases h)]
          exact .claimed k token x x' record hx hidle hnow hqueue hphase hfresh hclaimable

/-- Every act is one of the listed deeds. -/
theorem perform_deed (length : Duration) (w : World) (a : Act) :
    Deed length w a (w.perform length a) := by
  cases a with
  | life op =>
    change Deed length w _ (if op.cleaning = true then w else { w with life := w.life.apply op })
    split
    next => exact .idle _
    next hop => exact .life op (Bool.not_eq_true _ ▸ hop)
  | hold id hold =>
    change Deed length w _ (match w.life.db.submissions.get id with
      | none => w
      | some s => { w with life := w.life.apply (.cleanup id hold s.lease) })
    split
    next => exact .idle _
    next s hs => exact .held id hold s hs
  | start k =>
    change Deed length w _ (match w.workers.get k with
      | none => w.setWorker k (.start w.life.now)
      | some _ => w)
    split
    next hk => exact .started k hk
    next => exact .idle _
  | collectFiles k limit =>
    refine collect_deed _ k _ fun x record hmem => ?_
    obtain ⟨r, hr, rfl⟩ := List.mem_map.mp hmem
    obtain ⟨id, hdue⟩ := mem_collectDueFiles hr
    obtain ⟨rfl, hkey, _⟩ := dueFile_eq_some hdue
    exact hkey
  | collectIntents k limit =>
    refine collect_deed _ k _ fun x record hmem => ?_
    obtain ⟨r, hr, rfl⟩ := List.mem_map.mp hmem
    obtain ⟨id, hdue⟩ := mem_collectDueIntents hr
    obtain ⟨i, hget, _, _, _, rfl⟩ := dueIntent_eq_some hdue
    exact Option.map_eq_some_iff.mpr ⟨i, hget, rfl⟩
  | next k token => exact next_deed k token
  | send k =>
    change Deed length w _ (w.send k)
    unfold World.send
    split
    next => exact .idle _
    next x hx =>
      split
      next record token hphase => exact .sent k x record token hx hphase
      next => exact .idle _
  | settle k outcome =>
    change Deed length w _ (w.settle k outcome)
    unfold World.settle
    split
    next => exact .idle _
    next x hx =>
      split
      next record token hphase => exact .settled k outcome x record token hx hphase
      next => exact .idle _
  | finish k =>
    change Deed length w _ (w.finish k)
    unfold World.finish
    split
    next => exact .idle _
    next x hx =>
      split
      next => exact .dropped _ k
      next x' db hfinish =>
        obtain ⟨record, token, outcome, hphase, hidle, hqueue, hnow, rfl⟩ :=
          Worker.finish_eq_some hfinish
        exact .finished k x x' record token outcome hx hphase hidle hqueue hnow
  | crash k => exact .dropped _ k
  | release record token => exact .released record token
  | peek c user intentId head =>
    change Deed length w _ (w.peek c user intentId head)
    unfold World.peek
    split
    next hget => exact .peeked c user intentId head _ _ hget
    next => exact .idle _
  | finalize c id =>
    change Deed length w _ (w.finalize c id)
    unfold World.finalize
    split
    next => exact .idle _
    next call hcall => exact .finalized c id call hcall

end Inversion

end CampusQuest.Lifecycle
