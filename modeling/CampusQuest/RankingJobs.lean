import CampusQuest.RankingProjection
import CampusQuest.Runs
import Mathlib.Logic.Function.Basic

/-!
Ranking jobs beside the ledger. A job reads its scores one by one and writes them one by
one, while other transactions commit and other jobs and rebuilds run in between. A cell of
a board that is not as PostgreSQL has it must be covered: by a job that is still owed, or by
one that has yet to read it or still holds its current score.
-/

namespace CampusQuest.Rankings

open WallClock Runs
open Points (PointsLedger)

structure Update where
  user : UserId
  effectiveAt : Instant
  deriving DecidableEq

/-- The update that the writer of an entry enqueues behind its commit. -/
def updatesOf (e : PointsLedger) : List Update :=
  if e.affectsRanking then e.rankingEffectiveAt.toList.map (⟨e.userId, ·⟩) else []

/-- Where a worker stands between two of its statements. -/
inductive Worker
  | idle
  | reading (job : Update) (todo : List Board) (scores : List (Board × ℤ))
  | writing (job : Update) (scores : List (Board × ℤ))
  | rebuilding (todo rebuilt : List Board)
  | rewriting (b : Board) (scores : List (Member × ℤ)) (todo rebuilt : List Board)
  | scanning (stale : List RedisKey) (rebuilt : List Board)

/-- `owed` holds the updates that are to be enqueued or wait in the queue. -/
structure World (ι : Type) where
  ledger : List PointsLedger
  redis : Redis
  owed : List Update
  workers : ι → Worker

inductive Act (ι : Type)
  | commit (e : PointsLedger)
  | enqueue (job : Update)
  | start (i : ι) (job : Update)
  | rebuild (i : ι)
  | proceed (i : ι)
  | scan (i : ι) (key : RedisKey) (m : Member)
  | crash (i : ι)

section Steps

variable {ι : Type} [DecidableEq ι]

def World.become (w : World ι) (i : ι) (worker : Worker) : World ι :=
  { w with workers := Function.update w.workers i worker }

def World.write (w : World ι) (i : ι) (worker : Worker) (redis : Redis) : World ι :=
  { w.become i worker with redis := redis }

def World.proceed (zone : Zone) (w : World ι) (i : ι) : Option (World ι) :=
  match w.workers i with
  | .idle => none
  | .reading job (b :: todo) scores =>
    some (w.become i (.reading job todo (scores ++ [(b, b.userScore zone w.ledger job.user)])))
  | .reading job [] scores => some (w.become i (.writing job scores))
  | .writing job (score :: rest) =>
    some (w.write i (.writing job rest) (zaddScore job.user w.redis score))
  | .writing _ [] => some (w.become i .idle)
  | .rebuilding (b :: todo) rebuilt =>
    some (w.become i (.rewriting b (b.rangeScores zone w.ledger) todo rebuilt))
  | .rebuilding [] rebuilt => some (w.become i (.scanning [] rebuilt))
  | .rewriting b scores todo rebuilt =>
    some (w.write i (.rebuilding todo rebuilt) (rewriteBoard w.redis b scores))
  | .scanning stale _ => some (w.write i .idle (w.redis.delete stale))

/-- A crashed job is delivered again; a crashed rebuild is not. -/
def Worker.retried : Worker → List Update
  | .reading job _ _ | .writing job _ => [job]
  | .idle | .rebuilding _ _ | .rewriting _ _ _ _ | .scanning _ _ => []

def World.next (zone : Zone) (w : World ι) : Act ι → Option (World ι)
  | .commit e => some { w with ledger := w.ledger ++ [e], owed := w.owed ++ updatesOf e }
  | .enqueue job => some { w with owed := w.owed ++ [job] }
  | .start i job =>
    match w.workers i with
    | .idle =>
      if job ∈ w.owed then
        some { w.become i (.reading job (affectedBoards zone job.effectiveAt) []) with
          owed := w.owed.erase job }
      else none
    | _ => none
  | .rebuild i =>
    match w.workers i with
    | .idle =>
      some (w.become i (.rebuilding (rebuildTargets zone w.ledger) (rebuildTargets zone w.ledger)))
    | _ => none
  | .proceed i => w.proceed zone i
  | .scan i key m =>
    match w.workers i with
    | .scanning stale rebuilt =>
      if key.scanned = true ∧ key ∉ rebuilt.map .board ∧ w.redis key m ≠ none then
        some (w.become i (.scanning (stale ++ [key]) rebuilt))
      else none
    | _ => none
  | .crash i => some { w.become i .idle with owed := w.owed ++ (w.workers i).retried }

structure Right (zone : Zone) (w : World ι) (b : Board) (user : UserId) : Prop where
  score : ∀ s, w.redis (.board b) (.user user) = some s → s = b.userScore zone w.ledger user
  present : b.Ranked zone w.ledger user → w.redis (.board b) (.user user) ≠ none

def Quiescent (w : World ι) : Prop := w.owed = [] ∧ ∀ i, (w.workers i).retried = []

def rankings (zone : Zone) (ι : Type) [DecidableEq ι] : System (World ι) (Act ι) where
  init w := w.owed = [] ∧ (∀ i, w.workers i = .idle) ∧ ∀ b user, Right zone w b user
  step w a w' := w.next zone a = some w'

/-- The worker will read the cell, or has read the score that it still has. -/
def Worker.Covers (zone : Zone) (ledger : List PointsLedger) (b : Board) (user : UserId) :
    Worker → Prop
  | .reading job todo scores =>
    job.user = user ∧ (b ∈ todo ∨ (b, b.userScore zone ledger user) ∈ scores)
  | .writing job scores => job.user = user ∧ (b, b.userScore zone ledger user) ∈ scores
  | .idle | .rebuilding _ _ | .rewriting _ _ _ _ | .scanning _ _ => False

/-- An owed job, or one under way at a worker in `among`, will yet set the cell right. -/
def Covered (zone : Zone) (w : World ι) (among : ι → Prop) (b : Board) (user : UserId) : Prop :=
  (∃ job ∈ w.owed, job.user = user ∧ b ∈ affectedBoards zone job.effectiveAt) ∨
    ∃ i, among i ∧ (w.workers i).Covers zone w.ledger b user

/-- What worker `i` is about to write or to delete is still what PostgreSQL has, or another
job covers it. -/
def Worker.Fresh (zone : Zone) (w : World ι) (i : ι) : Worker → Prop
  | .writing job (score :: _) =>
    score.2 = score.1.userScore zone w.ledger job.user ∨ Covered zone w (· ≠ i) score.1 job.user
  | .rewriting b scores _ _ => ∀ user,
    scores.lookup (.user user) = (b.rangeScores zone w.ledger).lookup (.user user) ∨
      Covered zone w (· ≠ i) b user
  | .scanning stale _ => ∀ b user, .board b ∈ stale →
    ¬ b.Ranked zone w.ledger user ∨ Covered zone w (· ≠ i) b user
  | .writing _ [] | .idle | .reading _ _ _ | .rebuilding _ _ => True

/-- Every write is fresh, and every entry that is committed has an instant within no other
periods than those it is bucketed to. -/
def Fresh (zone : Zone) (w : World ι) : Act ι → Prop
  | .commit e => ∀ job ∈ updatesOf e, ∀ b : Board, b.Contains zone job.effectiveAt →
      b ∈ affectedBoards zone job.effectiveAt
  | .proceed i => (w.workers i).Fresh zone w i
  | .enqueue _ | .start _ _ | .rebuild _ | .scan _ _ _ | .crash _ => True

/-- A job reads and writes the boards of its own instant only. -/
def Worker.Bound (zone : Zone) : Worker → Prop
  | .reading job todo scores => (∀ b ∈ todo, b ∈ affectedBoards zone job.effectiveAt) ∧
      ∀ score ∈ scores, score.1 ∈ affectedBoards zone job.effectiveAt
  | .writing job scores => ∀ score ∈ scores, score.1 ∈ affectedBoards zone job.effectiveAt
  | .idle | .rebuilding _ _ | .rewriting _ _ _ _ | .scanning _ _ => True

structure Converging (zone : Zone) (w : World ι) : Prop where
  bound : ∀ i, (w.workers i).Bound zone
  cells : ∀ b user, Right zone w b user ∨ Covered zone w (fun _ => True) b user

section Cells

variable {zone : Zone} {w w' : World ι} {i : ι} {worker : Worker} {b : Board} {user : UserId}
  {among : ι → Prop}

theorem become_workers_self : (w.become i worker).workers i = worker := Function.update_self _ _ _

theorem become_workers_of_ne {j : ι} (h : j ≠ i) : (w.become i worker).workers j = w.workers j :=
  Function.update_of_ne h _ _

/-- A worker that goes on covering what it covered uncovers nothing. -/
theorem covered_become (h : Covered zone w among b user)
    (hcovers : (w.workers i).Covers zone w.ledger b user → worker.Covers zone w.ledger b user) :
    Covered zone (w.become i worker) among b user := by
  rcases h with howed | ⟨j, hj, hcover⟩
  · exact Or.inl howed
  · refine Or.inr ⟨j, hj, ?_⟩
    by_cases hji : j = i
    · subst hji
      rw [become_workers_self]
      exact hcovers hcover
    · rw [become_workers_of_ne hji]
      exact hcover

theorem covered_of_others (h : Covered zone w (· ≠ i) b user) :
    Covered zone (w.become i worker) (fun _ => True) b user := by
  rcases h with howed | ⟨j, hj, hcover⟩
  · exact Or.inl howed
  · refine Or.inr ⟨j, trivial, ?_⟩
    rw [become_workers_of_ne hj]
    exact hcover

theorem bound_become (h : ∀ j, (w.workers j).Bound zone) (hworker : worker.Bound zone) :
    ∀ j, ((w.become i worker).workers j).Bound zone := by
  intro j
  by_cases hji : j = i
  · subst hji
    rw [become_workers_self]
    exact hworker
  · rw [become_workers_of_ne hji]
    exact h j

theorem Converging.become (h : Converging zone w) (hworker : worker.Bound zone)
    (hcovers : ∀ b user, (w.workers i).Covers zone w.ledger b user →
      worker.Covers zone w.ledger b user) : Converging zone (w.become i worker) := by
  refine ⟨bound_become h.bound hworker, fun b user => ?_⟩
  rcases h.cells b user with hright | hcovered
  · exact Or.inl ⟨hright.score, hright.present⟩
  · exact Or.inr (covered_become hcovered (hcovers b user))

/-- A write may set some cells anew and must leave the others, with what covers them. -/
theorem Converging.write {redis : Redis} (h : Converging zone w) (hworker : worker.Bound zone)
    (hcells : ∀ b user, Right zone (w.write i worker redis) b user ∨
      Covered zone w (· ≠ i) b user ∨
      (redis (.board b) (.user user) = w.redis (.board b) (.user user) ∧
        ((w.workers i).Covers zone w.ledger b user → worker.Covers zone w.ledger b user))) :
    Converging zone (w.write i worker redis) := by
  refine ⟨bound_become h.bound hworker, fun b user => ?_⟩
  rcases hcells b user with hright | hothers | ⟨hsame, hcovers⟩
  · exact Or.inl hright
  · exact Or.inr (covered_of_others hothers)
  · rcases h.cells b user with hright | hcovered
    · refine Or.inl ⟨fun s hs => hright.score s ?_, fun hranked hnone => hright.present hranked ?_⟩
      · rw [← hsame]
        exact hs
      · rw [← hsame]
        exact hnone
    · exact Or.inr (covered_become hcovered hcovers)

end Cells

section Writes

variable {zone : Zone} {w : World ι} {i : ι}

theorem converging_zadd (h : Converging zone w) {job : Update} {b : Board} {s : ℤ}
    {rest : List (Board × ℤ)} (hworker : w.workers i = .writing job ((b, s) :: rest))
    (hfresh : s = b.userScore zone w.ledger job.user ∨ Covered zone w (· ≠ i) b job.user) :
    Converging zone (w.write i (.writing job rest) (zaddScore job.user w.redis (b, s))) := by
  have hbound : (Worker.writing job ((b, s) :: rest)).Bound zone := by
    rw [← hworker]
    exact h.bound i
  refine h.write (fun score hscore => hbound score (List.mem_cons_of_mem _ hscore)) fun b' user => ?_
  by_cases hcell : b' = b ∧ user = job.user
  · obtain ⟨rfl, rfl⟩ := hcell
    have hwritten : zaddScore job.user w.redis (b', s) (.board b') (.user job.user) = some s := by
      simp [zaddScore, Redis.zadd]
    rcases hfresh with hs | hcovered
    · refine Or.inl ⟨fun s' hs' => ?_, fun _ hnone => ?_⟩
      · have hs' : zaddScore job.user w.redis (b', s) (.board b') (.user job.user) = some s' := hs'
        rw [hwritten] at hs'
        cases hs'
        exact hs
      · have hnone : zaddScore job.user w.redis (b', s) (.board b') (.user job.user) = none := hnone
        rw [hwritten] at hnone
        cases hnone
    · exact Or.inr (Or.inl hcovered)
  · refine Or.inr (Or.inr ⟨?_, ?_⟩)
    · by_cases hb : b' = b
      · have hlookup : [(Member.user job.user, s)].lookup (.user user) = none := by
          have hmember : Member.user user ≠ .user job.user := by
            intro heq
            exact hcell ⟨hb, Member.user.inj heq⟩
          rw [List.lookup_cons, beq_false_of_ne hmember]
          rfl
        simp [zaddScore, Redis.zadd, hb, hlookup]
      · simp [zaddScore, Redis.zadd, hb]
    · rw [hworker]
      rintro ⟨rfl, hmem⟩
      rcases List.mem_cons.mp hmem with heq | hrest
      · exact absurd ⟨(Prod.mk.inj heq).1, rfl⟩ hcell
      · exact ⟨rfl, hrest⟩

/-- The next board of a rebuild is rewritten. -/
theorem converging_rewrite (h : Converging zone w) {b : Board} {scores : List (Member × ℤ)}
    {todo rebuilt : List Board} (hworker : w.workers i = .rewriting b scores todo rebuilt)
    (hfresh : ∀ user,
      scores.lookup (.user user) = (b.rangeScores zone w.ledger).lookup (.user user) ∨
        Covered zone w (· ≠ i) b user) :
    Converging zone (w.write i (.rebuilding todo rebuilt) (rewriteBoard w.redis b scores)) := by
  refine h.write trivial fun b' user => ?_
  by_cases hb : b' = b
  · subst hb
    have hwritten : rewriteBoard w.redis b' scores (.board b') (.user user) =
        scores.lookup (.user user) := by
      rw [rewriteBoard_apply, if_pos rfl]
    rcases hfresh user with hlookup | hcovered
    · rw [hlookup] at hwritten
      refine Or.inl ⟨fun s hs => ?_, fun hranked hnone => ?_⟩
      · have hs : rewriteBoard w.redis b' scores (.board b') (.user user) = some s := hs
        rw [hwritten] at hs
        exact (lookup_rangeScores_iff.mp hs).2
      · have hnone : rewriteBoard w.redis b' scores (.board b') (.user user) = none := hnone
        have hranked : b'.Ranked zone w.ledger user := hranked
        rw [hwritten, lookup_rangeScores_iff.mpr ⟨hranked, rfl⟩] at hnone
        cases hnone
    · exact Or.inr (Or.inl hcovered)
  · refine Or.inr (Or.inr ⟨?_, ?_⟩)
    · rw [rewriteBoard_apply, if_neg (by simpa using hb)]
    · rw [hworker]
      exact id

/-- The keys that a rebuild found stale are deleted. -/
theorem converging_delete (h : Converging zone w) {stale : List RedisKey} {rebuilt : List Board}
    (hworker : w.workers i = .scanning stale rebuilt)
    (hfresh : ∀ b user, .board b ∈ stale →
      ¬ b.Ranked zone w.ledger user ∨ Covered zone w (· ≠ i) b user) :
    Converging zone (w.write i .idle (w.redis.delete stale)) := by
  refine h.write trivial fun b user => ?_
  by_cases hb : .board b ∈ stale
  · have hdeleted : w.redis.delete stale (.board b) (.user user) = none := if_pos hb
    rcases hfresh b user hb with hunranked | hcovered
    · refine Or.inl ⟨fun s hs => ?_, fun hranked => absurd hranked hunranked⟩
      have hs : w.redis.delete stale (.board b) (.user user) = some s := hs
      rw [hdeleted] at hs
      cases hs
    · exact Or.inr (Or.inl hcovered)
  · refine Or.inr (Or.inr ⟨if_neg hb, ?_⟩)
    rw [hworker]
    exact id

theorem converging_proceed (h : Converging zone w) (hfresh : Fresh zone w (.proceed i))
    {w' : World ι} (hstep : w.proceed zone i = some w') : Converging zone w' := by
  have hbound := h.bound i
  have hbecome : ∀ worker : Worker, worker.Bound zone → (∀ b user,
      (w.workers i).Covers zone w.ledger b user → worker.Covers zone w.ledger b user) →
      Converging zone (w.become i worker) := fun _ => h.become
  unfold World.proceed at hstep
  change (w.workers i).Fresh zone w i at hfresh
  generalize hworker : w.workers i = worker at hstep hfresh hbound hbecome
  cases worker with
  | idle => cases hstep
  | reading job todo scores =>
    cases todo with
    | nil =>
      cases hstep
      refine hbecome _ hbound.2 fun b user hcovers => ⟨hcovers.1, ?_⟩
      rcases hcovers.2 with htodo | hread
      · cases htodo
      · exact hread
    | cons b todo =>
      cases hstep
      refine hbecome _ ⟨fun b' hb' => hbound.1 b' (List.mem_cons_of_mem _ hb'), ?_⟩ ?_
      · intro score hscore
        rcases List.mem_append.mp hscore with hold | hnew
        · exact hbound.2 score hold
        · rw [List.mem_singleton.mp hnew]
          exact hbound.1 b List.mem_cons_self
      · rintro b' user ⟨rfl, hcovers⟩
        refine ⟨rfl, ?_⟩
        rcases hcovers with htodo | hread
        · rcases List.mem_cons.mp htodo with rfl | hlater
          · exact Or.inr (List.mem_append_right _ (List.mem_singleton_self _))
          · exact Or.inl hlater
        · exact Or.inr (List.mem_append_left _ hread)
  | writing job scores =>
    cases scores with
    | nil =>
      cases hstep
      exact hbecome _ trivial fun b user hcovers => by cases hcovers.2
    | cons score rest =>
      cases hstep
      exact converging_zadd h hworker hfresh
  | rebuilding todo rebuilt =>
    cases todo with
    | nil =>
      cases hstep
      exact hbecome _ trivial fun _ _ => id
    | cons b todo =>
      cases hstep
      exact hbecome _ trivial fun _ _ => id
  | rewriting b scores todo rebuilt =>
    cases hstep
    exact converging_rewrite h hworker hfresh
  | scanning stale rebuilt =>
    cases hstep
    exact converging_delete h hworker hfresh

omit [DecidableEq ι] in
/-- A commit changes only cells that its own update covers. -/
theorem converging_commit (h : Converging zone w) {e : PointsLedger} (hfresh : Fresh zone w (.commit e)) :
    Converging zone
      ({ w with ledger := w.ledger ++ [e], owed := w.owed ++ updatesOf e } : World ι) := by
  refine ⟨h.bound, fun b user => ?_⟩
  by_cases htouched : e.userId = user ∧ rangeFilters (b.startsAt zone) (b.endsAt zone) e = true
  · obtain ⟨rfl, hrow⟩ := htouched
    have hranking : e.affectsRanking = true := by
      unfold rangeFilters at hrow
      rw [Bool.and_eq_true, Bool.and_eq_true] at hrow
      exact hrow.1.1
    obtain ⟨instant, hinstant⟩ :=
      Option.ne_none_iff_exists'.mp (e.ranking_effective_required hranking)
    have hjob : (⟨e.userId, instant⟩ : Update) ∈ updatesOf e := by
      simp [updatesOf, hranking, hinstant]
    refine Or.inr (Or.inl ⟨⟨e.userId, instant⟩, List.mem_append_right _ hjob, rfl, ?_⟩)
    exact hfresh _ hjob b ((rangeFilters_iff hinstant).mp hrow).2
  · have hscore : b.userScore zone (w.ledger ++ [e]) user = b.userScore zone w.ledger user := by
      unfold Board.userScore
      rw [userScore_append, if_neg htouched, add_zero]
    have hranked : b.Ranked zone (w.ledger ++ [e]) user → b.Ranked zone w.ledger user := by
      rintro ⟨e', he', hname, hrow⟩
      rcases List.mem_append.mp he' with hold | hnew
      · exact ⟨e', hold, hname, hrow⟩
      · rw [List.mem_singleton.mp hnew] at hname hrow
        exact absurd ⟨hname, hrow⟩ htouched
    rcases h.cells b user with hright | hcovered
    · refine Or.inl ⟨fun s hs => ?_, fun hr => hright.present (hranked hr)⟩
      rw [hscore]
      exact hright.score s hs
    · rcases hcovered with ⟨job, hjob, hname, hb⟩ | ⟨j, _, hcovers⟩
      · exact Or.inr (Or.inl ⟨job, List.mem_append_left _ hjob, hname, hb⟩)
      · refine Or.inr (Or.inr ⟨j, trivial, ?_⟩)
        change (w.workers j).Covers zone (w.ledger ++ [e]) b user
        cases hworker : w.workers j with
        | reading job todo scores =>
          rw [hworker] at hcovers
          unfold Worker.Covers
          rw [hscore]
          exact hcovers
        | writing job scores =>
          rw [hworker] at hcovers
          unfold Worker.Covers
          rw [hscore]
          exact hcovers
        | idle => rw [hworker] at hcovers; exact hcovers
        | rebuilding todo rebuilt => rw [hworker] at hcovers; exact hcovers
        | rewriting b scores todo rebuilt => rw [hworker] at hcovers; exact hcovers
        | scanning stale rebuilt => rw [hworker] at hcovers; exact hcovers

theorem converging_start (h : Converging zone w) {job : Update} (hidle : w.workers i = .idle) :
    Converging zone { w.become i (.reading job (affectedBoards zone job.effectiveAt) []) with
      owed := w.owed.erase job } := by
  have hbound : ∀ j, ((w.become i
      (.reading job (affectedBoards zone job.effectiveAt) [])).workers j).Bound zone := by
    refine bound_become h.bound ⟨fun b hb => hb, fun score hscore => ?_⟩
    cases hscore
  refine ⟨hbound, fun b user => ?_⟩
  rcases h.cells b user with hright | ⟨job', hjob', hname, hb⟩ | ⟨j, _, hcovers⟩
  · exact Or.inl ⟨hright.score, hright.present⟩
  · by_cases hsame : job' = job
    · subst hsame
      refine Or.inr (Or.inr ⟨i, trivial, ?_⟩)
      change ((w.become i _).workers i).Covers zone w.ledger b user
      rw [become_workers_self]
      exact ⟨hname, Or.inl hb⟩
    · exact Or.inr (Or.inl ⟨job', (List.mem_erase_of_ne hsame).mpr hjob', hname, hb⟩)
  · by_cases hji : j = i
    · rw [hji, hidle] at hcovers
      exact hcovers.elim
    · refine Or.inr (Or.inr ⟨j, trivial, ?_⟩)
      change ((w.become i _).workers j).Covers zone w.ledger b user
      rw [become_workers_of_ne hji]
      exact hcovers

theorem covers_retried {ledger : List PointsLedger} {b : Board} {user : UserId} {worker : Worker}
    (hbound : worker.Bound zone) (h : worker.Covers zone ledger b user) :
    ∃ job ∈ worker.retried, job.user = user ∧ b ∈ affectedBoards zone job.effectiveAt := by
  cases worker with
  | reading job todo scores =>
    obtain ⟨hname, hread⟩ := h
    refine ⟨job, List.mem_singleton_self _, hname, ?_⟩
    rcases hread with htodo | hscore
    · exact hbound.1 b htodo
    · exact hbound.2 _ hscore
  | writing job scores => exact ⟨job, List.mem_singleton_self _, h.1, hbound _ h.2⟩
  | idle => exact h.elim
  | rebuilding todo rebuilt => exact h.elim
  | rewriting b scores todo rebuilt => exact h.elim
  | scanning stale rebuilt => exact h.elim

theorem converging_crash (h : Converging zone w) :
    Converging zone { w.become i .idle with owed := w.owed ++ (w.workers i).retried } := by
  have hbound : ∀ j, ((w.become i .idle).workers j).Bound zone := bound_become h.bound trivial
  refine ⟨hbound, fun b user => ?_⟩
  rcases h.cells b user with hright | ⟨job, hjob, hname, hb⟩ | ⟨j, _, hcovers⟩
  · exact Or.inl ⟨hright.score, hright.present⟩
  · exact Or.inr (Or.inl ⟨job, List.mem_append_left _ hjob, hname, hb⟩)
  · by_cases hji : j = i
    · rw [hji] at hcovers
      obtain ⟨job, hjob, hname, hb⟩ := covers_retried (h.bound i) hcovers
      exact Or.inr (Or.inl ⟨job, List.mem_append_right _ hjob, hname, hb⟩)
    · refine Or.inr (Or.inr ⟨j, trivial, ?_⟩)
      change ((w.become i .idle).workers j).Covers zone w.ledger b user
      rw [become_workers_of_ne hji]
      exact hcovers

/-- A fresh step leaves every cell right or covered. -/
theorem converging_next (h : Converging zone w) {a : Act ι} (hfresh : Fresh zone w a) {w' : World ι}
    (hstep : w.next zone a = some w') : Converging zone w' := by
  cases a with
  | commit e =>
    cases hstep
    exact converging_commit h hfresh
  | enqueue job =>
    cases hstep
    refine ⟨h.bound, fun b user => ?_⟩
    rcases h.cells b user with hright | ⟨job', hjob', hrest⟩ | hworkers
    · exact Or.inl ⟨hright.score, hright.present⟩
    · exact Or.inr (Or.inl ⟨job', List.mem_append_left _ hjob', hrest⟩)
    · exact Or.inr (Or.inr hworkers)
  | start i job =>
    simp only [World.next] at hstep
    split at hstep
    next hidle =>
      split at hstep
      next =>
        cases hstep
        exact converging_start h hidle
      next => cases hstep
    next => cases hstep
  | rebuild i =>
    simp only [World.next] at hstep
    split at hstep
    next hidle =>
      cases hstep
      refine h.become trivial fun b user hcovers => ?_
      rw [hidle] at hcovers
      exact hcovers
    next => cases hstep
  | proceed i => exact converging_proceed h hfresh hstep
  | scan i key m =>
    simp only [World.next] at hstep
    split at hstep
    next stale rebuilt hscanning =>
      split at hstep
      next =>
        cases hstep
        refine h.become trivial fun b user hcovers => ?_
        rw [hscanning] at hcovers
        exact hcovers
      next => cases hstep
    next => cases hstep
  | crash i =>
    cases hstep
    exact converging_crash h

end Writes

section Lone

variable {zone : Zone} {w : World ι} {i : ι}

theorem become_become {worker worker' : Worker} :
    (w.become i worker).become i worker' = w.become i worker' := by
  simp only [World.become, Function.update_idem]

def World.run (zone : Zone) (w : World ι) (acts : List (Act ι)) : Option (World ι) :=
  acts.foldlM (World.next zone) w

theorem run_cons {w' : World ι} {a : Act ι} {acts : List (Act ι)} (h : w.next zone a = some w') :
    w.run zone (a :: acts) = w'.run zone acts := by
  unfold World.run
  rw [List.foldlM_cons, h]
  rfl

theorem run_append {w' : World ι} {acts acts' : List (Act ι)} (h : w.run zone acts = some w') :
    w.run zone (acts ++ acts') = w'.run zone acts' := by
  unfold World.run at h ⊢
  rw [List.foldlM_append, h]
  rfl

/-- A job that nobody interferes with does what `apply_ranking_update` does. -/
theorem lone_update {job : Update} :
    (w.become i (.reading job (affectedBoards zone job.effectiveAt) [])).run zone
        (List.replicate 8 (.proceed i)) =
      some (w.write i .idle
        (applyRankingUpdate zone w.ledger w.redis job.user job.effectiveAt)) := by
  simp [World.run, List.replicate, World.next, World.proceed, affectedBoards, World.become,
    World.write, applyRankingUpdate]

theorem lone_rewrites (todo rebuilt : List Board) :
    (w.become i (.rebuilding todo rebuilt)).run zone (List.replicate (2 * todo.length) (.proceed i)) =
      some (w.write i (.rebuilding [] rebuilt)
        (todo.foldl (fun redis b => rewriteBoard redis b (b.rangeScores zone w.ledger)) w.redis)) := by
  induction todo generalizing w with
  | nil => rfl
  | cons b todo ih =>
    have hread : (w.become i (.rebuilding (b :: todo) rebuilt)).next zone (.proceed i) =
        some (w.become i (.rewriting b (b.rangeScores zone w.ledger) todo rebuilt)) := by
      simp [World.next, World.proceed, World.become]
    have hwrite : (w.become i (.rewriting b (b.rangeScores zone w.ledger) todo rebuilt)).next zone
        (.proceed i) = some (({ w with
          redis := rewriteBoard w.redis b (b.rangeScores zone w.ledger) } : World ι).become i
            (.rebuilding todo rebuilt)) := by
      simp [World.next, World.proceed, World.become, World.write]
    have hlength : 2 * (b :: todo).length = 2 * todo.length + 1 + 1 := by
      rw [List.length_cons]
      omega
    rw [hlength, List.replicate_succ, List.replicate_succ, run_cons hread, run_cons hwrite]
    exact ih

theorem lone_scans {stale : List RedisKey} {rebuilt : List Board} (found : List (RedisKey × Member))
    (hfound : ∀ row ∈ found, row.1.scanned = true ∧ row.1 ∉ rebuilt.map .board ∧
      w.redis row.1 row.2 ≠ none) :
    (w.become i (.scanning stale rebuilt)).run zone
        (found.map fun row => .scan i row.1 row.2) =
      some (w.become i (.scanning (stale ++ found.map Prod.fst) rebuilt)) := by
  induction found generalizing stale with
  | nil =>
    rw [List.map_nil, List.map_nil, List.append_nil]
    rfl
  | cons row rest ih =>
    have hscan : (w.become i (.scanning stale rebuilt)).next zone (.scan i row.1 row.2) =
        some (w.become i (.scanning (stale ++ [row.1]) rebuilt)) := by
      have hrow := hfound row List.mem_cons_self
      have hworker : (w.become i (.scanning stale rebuilt)).workers i = .scanning stale rebuilt :=
        become_workers_self
      simp only [World.next, hworker]
      exact (if_pos hrow).trans (congrArg some become_become)
    rw [List.map_cons, run_cons hscan, ih fun row' hrow' => hfound row' (List.mem_cons_of_mem _ hrow')]
    rw [List.append_assoc, List.map_cons]
    rfl

/-- A rebuild that nobody interferes with, and whose scan finds every key of the patterns,
does what `rebuild_all` does. -/
theorem lone_rebuild (hidle : w.workers i = .idle) (found : List (RedisKey × Member))
    (hfound : ∀ row, row ∈ found ↔ row.1.scanned = true ∧
      row.1 ∉ (rebuildTargets zone w.ledger).map .board ∧
      (rebuildTargets zone w.ledger).foldl
        (fun redis b => rewriteBoard redis b (b.rangeScores zone w.ledger)) w.redis row.1 row.2 ≠
          none) :
    w.run zone (.rebuild i ::
        (List.replicate (2 * (rebuildTargets zone w.ledger).length) (.proceed i) ++
          (.proceed i :: (found.map (fun row => .scan i row.1 row.2) ++ [.proceed i])))) =
      some (w.write i .idle (rebuildAll zone w.ledger w.redis)) := by
  have hbegin : w.next zone (.rebuild i) = some (w.become i
      (.rebuilding (rebuildTargets zone w.ledger) (rebuildTargets zone w.ledger))) := by
    simp only [World.next, hidle]
  rw [run_cons hbegin, run_append (lone_rewrites _ _)]
  generalize hrewritten : (rebuildTargets zone w.ledger).foldl
    (fun redis b => rewriteBoard redis b (b.rangeScores zone w.ledger)) w.redis = redis at hfound ⊢
  have hscanning : (w.write i (.rebuilding [] (rebuildTargets zone w.ledger)) redis).next zone
      (.proceed i) = some (({ w with redis := redis } : World ι).become i
        (.scanning [] (rebuildTargets zone w.ledger))) := by
    simp [World.next, World.proceed, World.become, World.write]
  rw [run_cons hscanning, run_append (lone_scans found fun row hrow => (hfound row).mp hrow)]
  have hdeleted : redis.delete (found.map Prod.fst) =
      deleteUnbackedKeys redis (rebuildTargets zone w.ledger) := by
    funext k m
    unfold Redis.delete deleteUnbackedKeys
    by_cases hk : k ∈ found.map Prod.fst
    · obtain ⟨row, hrow, rfl⟩ := List.mem_map.mp hk
      have hunbacked := (hfound row).mp hrow
      rw [if_pos hk, if_pos ⟨hunbacked.1, hunbacked.2.1⟩]
    · rw [if_neg hk]
      split
      next hunbacked =>
        by_contra hsome
        exact hk (List.mem_map.mpr ⟨(k, m), (hfound (k, m)).mpr ⟨hunbacked.1, hunbacked.2, hsome⟩,
          rfl⟩)
      next => rfl
  have hdelete : ((({ w with redis := redis } : World ι).become i
      (.scanning ([] ++ found.map Prod.fst) (rebuildTargets zone w.ledger)))).next zone (.proceed i) =
      some (w.write i .idle (rebuildAll zone w.ledger w.redis)) := by
    have hrebuilt : rebuildAll zone w.ledger w.redis = redis.delete (found.map Prod.fst) := by
      rw [hdeleted, ← hrewritten]
      rfl
    rw [hrebuilt]
    simp [World.next, World.proceed, World.become, World.write]
  rw [run_cons hdelete]
  rfl

end Lone

/-- If every write to Redis is fresh, then whenever no job is owed or under way every cell of
every board is as PostgreSQL has it. -/
theorem boards_converge (zone : Zone) :
    ∀ w, ((rankings zone ι).guarded (Fresh zone)).Reach w → Quiescent w →
      ∀ b user, Right zone w b user := by
  intro w hw hquiet b user
  have hinductive : ((rankings zone ι).guarded (Fresh zone)).Inductive (Converging zone) := by
    constructor
    · rintro w ⟨_, hidle, hright⟩
      refine ⟨fun i => ?_, fun b user => Or.inl (hright b user)⟩
      rw [hidle i]
      trivial
    · rintro w a w' h ⟨hstep, hfresh⟩
      exact converging_next h hfresh hstep
  have hconverging := hinductive.reach hw
  rcases hconverging.cells b user with hright | ⟨job, hjob, _⟩ | ⟨i, _, hcovers⟩
  · exact hright
  · rw [hquiet.1] at hjob
    cases hjob
  · obtain ⟨job, hjob, _⟩ := covers_retried (hconverging.bound i) hcovers
    rw [hquiet.2 i] at hjob
    cases hjob

theorem reach_run {zone : Zone} {w w' : World ι} (hw : (rankings zone ι).Reach w)
    (acts : List (Act ι)) (h : w.run zone acts = some w') : (rankings zone ι).Reach w' := by
  induction acts generalizing w with
  | nil =>
    cases h
    exact hw
  | cons a acts ih =>
    unfold World.run at h
    rw [List.foldlM_cons] at h
    obtain ⟨w₁, hstep, hrest⟩ := Option.bind_eq_some_iff.mp h
    exact ih (.step hw hstep) hrest

theorem reach_fresh {zone : Zone} {w w' : World ι}
    (hw : ((rankings zone ι).guarded (Fresh zone)).Reach w) (a : Act ι)
    (hstep : w.next zone a = some w') (hfresh : Fresh zone w a) :
    ((rankings zone ι).guarded (Fresh zone)).Reach w' :=
  .step hw ⟨hstep, hfresh⟩

end Steps

def emptyWorld (ι : Type) : World ι := ⟨[], .empty, [], fun _ => .idle⟩

theorem rankings_empty (zone : Zone) (ι : Type) [DecidableEq ι] :
    (rankings zone ι).init (emptyWorld ι) := by
  refine ⟨rfl, fun _ => rfl, fun b user => ⟨fun s hs => ?_, fun hranked => ?_⟩⟩
  · cases hs
  · obtain ⟨e, he, _⟩ := hranked
    cases he

theorem shanghai_placed (instant : Instant) : Placed shanghai instant := by
  have huncrossed : ∀ date, ¬ shanghai.Crossed (date * Lifecycle.dayLength) := fun _ h => h
  exact placed_of_uncrossed huncrossed instant

def firstReward : PointsLedger := rewardEntry 1 1 5 (by decide) 1289098800000000

def secondReward : PointsLedger := rewardEntry 1 2 7 (by decide) 1289098800000000

def rewardUpdate : Update := ⟨1, 1289098800000000⟩

/-- The first job reads, the second reward is committed and its job runs to its end, and then
the first job writes the old scores. -/
def staleActs : List (Act Bool) :=
  [.commit firstReward, .start false rewardUpdate] ++ List.replicate 4 (.proceed false) ++
    [.commit secondReward, .start true rewardUpdate] ++ List.replicate 8 (.proceed true) ++
    List.replicate 4 (.proceed false)

theorem boards_diverge : ∃ w, (rankings shanghai Bool).Reach w ∧ Quiescent w ∧
    ¬ Right shanghai w .all 1 := by
  have hinit : (rankings shanghai Bool).Reach (emptyWorld Bool) := .init (rankings_empty _ _)
  refine ⟨_, reach_run hinit staleActs rfl, ⟨rfl, fun i => by cases i <;> rfl⟩, fun hright => ?_⟩
  have hscore := hright.score 5 (by decide)
  revert hscore
  decide

theorem boards_converge_reward : ∃ w, ((rankings shanghai Bool).guarded (Fresh shanghai)).Reach w ∧
    w.ledger = [firstReward] ∧ ∀ b user, Right shanghai w b user := by
  have hinit : ((rankings shanghai Bool).guarded (Fresh shanghai)).Reach (emptyWorld Bool) :=
    .init (rankings_empty _ _)
  have hcommit := reach_fresh hinit (.commit firstReward) rfl
    fun job _ b hb => (shanghai_placed job.effectiveAt b).mp hb
  have hstart := reach_fresh hcommit (.start false rewardUpdate) rfl trivial
  have hday := reach_fresh hstart (.proceed false) rfl trivial
  have hmonth := reach_fresh hday (.proceed false) rfl trivial
  have hall := reach_fresh hmonth (.proceed false) rfl trivial
  have hread := reach_fresh hall (.proceed false) rfl trivial
  have hday' := reach_fresh hread (.proceed false) rfl (Or.inl rfl)
  have hmonth' := reach_fresh hday' (.proceed false) rfl (Or.inl rfl)
  have hall' := reach_fresh hmonth' (.proceed false) rfl (Or.inl rfl)
  have hdone := reach_fresh hall' (.proceed false) rfl trivial
  exact ⟨_, hdone, rfl, boards_converge shanghai _ hdone ⟨rfl, fun i => by cases i <;> rfl⟩⟩

end CampusQuest.Rankings
