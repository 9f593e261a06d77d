import CampusQuest.OrphanIntents

/-!
Cleanup and protection exclude each other. A claim enters VALIDATING or UNDER_REVIEW only
while no submission of it is claimed for cleanup, and a worker claims a submission only
while its claim is in neither. A worker that has claimed a file therefore meets an
unfinished claim or a deleted object, however long it sleeps, unless an administrative
release takes the claim of the file away in between.
-/

namespace CampusQuest.Lifecycle

open Tables Runs System Leases

def Db.Protects (db : Db) (s : Submission) : Prop :=
  ∃ claim, db.claims.get s.claimId = some claim ∧ claim.status.ownsFiles = true

def Exclusion (db : Db) : Prop :=
  ∀ id s, db.submissions.get id = some s → db.Protects s → s.cleanupUnfinished = false

/-- The worker's next DELETE is for no object of a protected submission that is not deleted
yet. -/
def World.SafeDelete (w : World) (k : WorkerId) : Prop :=
  ∀ x record token id s, w.workers.get k = some x → x.phase = .claimed record token →
    w.life.db.submissions.get id = some s → s.objectKey = record.objectKey →
      s.deletedAt = none → ¬ w.life.db.Protects s

/-- An administrative release that takes effect leaves no worker behind with its DELETE of
that file still to send. -/
def World.QuietRelease (w : World) (a : Act) : Prop :=
  ∀ record token l, a = .release record token →
    w.life.db.lease (.file record.submissionId) = some l → l.token = some token →
      l.doneAt = none → ∀ k x r t, w.workers.get k = some x → x.phase = .claimed r t →
        r.target ≠ .file record.submissionId

section Protection

variable {s : State} {db' : Db} {op : Op} {k : ClaimId} {c c' : AssignmentClaim}

theorem unfinishedCleanups_eq_empty {db : Db} {claim : ClaimId}
    (h : db.unfinishedCleanups claim = ∅) {id : SubmissionId} {r : Submission}
    (hr : db.submissions.get id = some r) (hclaim : r.claimId = claim) :
    r.cleanupUnfinished = false := by
  by_contra hunfinished
  rw [Bool.not_eq_false] at hunfinished
  have hmem : id ∈ db.unfinishedCleanups claim := by
    unfold Db.unfinishedCleanups
    rw [Finset.mem_filter]
    constructor
    · by_contra hnot
      have hnone : db.submissions.get id = none := Finmap.lookup_eq_none.mpr
        fun hin => hnot (Finmap.mem_keys.mpr hin)
      rw [hr] at hnone
      cases hnone
    · rw [hr]
      simp [hclaim, hunfinished]
  rw [h] at hmem
  cases hmem

/-- A claim enters the review pipeline only past the cleanup guard. -/
theorem ClaimMove.protects (h : ClaimMove s db' op k c c') (hafter : c'.status.ownsFiles = true) :
    c.status.ownsFiles = true ∨ s.db.unfinishedCleanups k = ∅ := by
  cases h with
  | same => exact Or.inl hafter
  | finalized => exact Or.inl hafter
  | validating _ _ _ _ _ _ _ _ hguard => exact Or.inr hguard
  | ended _ _ _ status _ _ _ hstatus =>
    have hafter : status.ownsFiles = true := hafter
    cases status <;> simp_all [ClaimStatus.ownsFiles, ClaimStatus.reassignExcluded]
  | restored _ _ _ _ _ _ status _ _ _ hvalidating =>
    rw [hvalidating]
    exact Or.inl rfl
  | returned => cases hafter
  | unlocked => cases hafter
  | approved => cases hafter
  | locked id row _ locked rows _ _ hactive hlocked hguard =>
    by_cases hbefore : c.status.ownsFiles = true
    · exact Or.inl hbefore
    · right
      have hstatus : locked.status = c.status := by
        rcases establishLock_cases hlocked with ⟨_, rfl⟩ | ⟨_, _, rfl⟩ <;> rfl
      have hentry : locked.status.reviewEntry = true := by
        rw [hstatus]
        cases hcases : c.status <;>
          simp_all [ClaimStatus.active, ClaimStatus.ownsFiles, ClaimStatus.reviewEntry]
      by_contra hunfinished
      exact hguard ⟨hentry, hunfinished⟩

end Protection

section Steps

variable {w w' : World} {length : Duration} {a : Act}

/-- No act claims a protected submission or protects one that is claimed. -/
theorem Deed.exclusion (h : Deed length w a w') (hw : Remembered w)
    (hs : Exclusion w.life.db) : Exclusion w'.life.db := by
  rintro id r' hr' ⟨c', hc', howns⟩
  have hlease' : w'.life.db.lease (.file id) = some r'.lease :=
    Option.map_eq_some_iff.mpr ⟨r', hr', rfl⟩
  rw [Submission.cleanupUnfinished_eq]
  rcases h.life_cases hw with hsame | ⟨op, hop⟩
  · rw [hsame] at hr' hc'
    exact hs id r' hr' ⟨c', hc', howns⟩
  · cases hold : w.life.db.submissions.get id with
    | none =>
      have hnone : w.life.db.lease (.file id) = none := Option.map_eq_none_iff.mpr hold
      rw [h.lease_made hw hnone hlease']
      rfl
    | some r =>
      have hlease : w.life.db.lease (.file id) = some r.lease :=
        Option.map_eq_some_iff.mpr ⟨r, hold, rfl⟩
      obtain ⟨r₁, hr₁, hmove⟩ := (apply_effect w.life op).submission_move hold
      rw [hop] at hr'
      rw [hr'] at hr₁
      cases hr₁
      have hclaimId := hmove.sameSubmission.claimId
      rw [hclaimId] at hc'
      obtain ⟨l', hl', hleaseMove⟩ := h.lease_move hw hlease
      rw [hlease', Option.some.injEq] at hl'
      rw [hl']
      have hquiet : c'.status.ownsFiles = true → r.lease.unfinished = false := by
        intro howns
        rw [hop] at hc'
        rcases claim_step hc' with hmade | ⟨c, hc, hclaim⟩
        · cases hmade
          cases howns
        · rcases hclaim.protects howns with hbefore | hempty
          · exact hs id r hold ⟨c, hc, hbefore⟩
          · exact unfinishedCleanups_eq_empty hempty hold rfl
      cases hleaseMove with
      | same => exact hquiet howns
      | taken k x record token stop hx hrecord hclaimable hclaims =>
        cases record with
        | intent i => cases hrecord
        | file f =>
          cases hrecord
          obtain ⟨r₂, claim, hr₂, _, hclaim, hfree⟩ := hclaimable
          rw [hold] at hr₂
          cases hr₂
          rw [hclaims, hclaim] at hc'
          cases hc'
          rw [hfree] at howns
          cases howns
      | finished => rfl
      | released _ _ ht => cases ht
      | repaired _ _ _ _ _ hopen =>
        unfold Lease.clear Lease.unfinished
        rw [hopen]
        rfl

theorem exclusion_reach (hw : (cleanup length).Reach w) : Exclusion w.life.db := by
  refine reach_induction (J := fun w => Exclusion w.life.db) (remembered_inductive length) ?_ ?_ hw
  · intro w hinit id s hs
    rw [hinit.life.submissions, Table.get_empty] at hs
    cases hs
  · rintro w a _ hw hs rfl
    exact (perform_deed length w a).exclusion hw hs

/-- The lease of a file that a worker has claimed: the claim stands, or the file is gone. -/
def Covered (l : CleanupLease) : Prop := l.doneAt ≠ none ∨ l.token ≠ none

def World.PendingCovered (w : World) : Prop :=
  ∀ k x f token, w.workers.get k = some x → x.phase = .claimed (.file f) token →
    ∃ l, w.life.db.lease (.file f.submissionId) = some l ∧ Covered l

/-- A worker that is about to send its DELETE was so before, or it has just claimed. -/
theorem Deed.claimed_cases (h : Deed length w a w') {k : WorkerId} {x' : Worker}
    {record : Record} {token : ℕ} (hx' : w'.workers.get k = some x')
    (hphase' : x'.phase = .claimed record token) :
    w.workers.get k = some x' ∨ ∃ stop now, w'.life.db = w.life.db.modifyLease record.target
      fun l => l.take now stop token := by
  have hput : ∀ {j : WorkerId} {y : Worker}, (w.workers.put j y).get k = some x' →
      y = x' ∨ w.workers.get k = some x' := by
    intro j y hget
    rcases Table.get_put_eq_some hget with ⟨_, hnew⟩ | ⟨_, hold⟩
    · exact Or.inl hnew.symm
    · exact Or.inr hold
  cases h with
  | idle | life | held | released | peeked | finalized => exact Or.inl hx'
  | started j =>
    rcases hput hx' with rfl | hold
    · cases hphase'
    · exact Or.inl hold
  | waiting _ j y y' hy hidle hidle' =>
    rcases hput hx' with rfl | hold
    · rw [hidle'] at hphase'
      cases hphase'
    · exact Or.inl hold
  | claimed j token' y y' r hy hidle hnow hqueue hphase =>
    rcases hput hx' with rfl | hold
    · rw [hphase] at hphase'
      cases hphase'
      exact Or.inr ⟨_, _, rfl⟩
    · exact Or.inl hold
  | sent j y r token' hy hphase =>
    rcases hput hx' with rfl | hold
    · cases hphase'
    · exact Or.inl hold
  | settled j outcome y r token' hy hphase =>
    rcases hput hx' with rfl | hold
    · cases hphase'
    · exact Or.inl hold
  | finished j y y' r token' outcome hy hphase hidle =>
    rcases hput hx' with rfl | hold
    · rw [hidle] at hphase'
      cases hphase'
    · exact Or.inl hold
  | dropped _ j => exact Or.inl (Table.get_of_remove hx')

/-- The claim of a file covers every worker that is about to delete it. -/
theorem pendingCovered_reach (hw : ((cleanup length).guarded World.QuietRelease).Reach w) :
    w.PendingCovered := by
  induction hw with
  | init hinit =>
    intro k x f token hx
    rw [hinit.workers, Table.get_empty] at hx
    cases hx
  | @step w w' a hw hstep hcovered =>
    obtain ⟨hstep, hquiet⟩ := hstep
    cases hstep
    have hremembered := (remembered_inductive length).reach hw.of_guarded
    have hdeed := perform_deed length w a
    intro k x' f token hx' hphase'
    rcases hdeed.claimed_cases hx' hphase' with hx | ⟨stop, now, hdb⟩
    · obtain ⟨l, hl, hcover⟩ := hcovered k x' f token hx hphase'
      obtain ⟨l', hl', hmove⟩ := hdeed.lease_move hremembered hl
      refine ⟨l', hl', ?_⟩
      cases hmove with
      | same => exact hcover
      | taken => exact Or.inr fun h => by cases h
      | finished => exact Or.inl fun h => by cases h
      | released _ _ ht => cases ht
      | repaired record token' ha ht htoken hopen =>
        rw [ht] at hl
        exact absurd ht (hquiet record token' l ha hl htoken hopen k x' (.file f) token hx hphase')
    · have hlisted := (remembered_inductive length).step w a _ hremembered rfl
      have hkey := hlisted.working k x' (.file f) hx' (by rw [hphase']; rfl)
      obtain ⟨r', hr', _⟩ := Option.map_eq_some_iff.mp hkey
      have hlease' : (w.perform length a).life.db.lease (.file f.submissionId) = some r'.lease :=
        Option.map_eq_some_iff.mpr ⟨r', hr', rfl⟩
      refine ⟨r'.lease, hlease', Or.inr ?_⟩
      have hself : Target.file f.submissionId = (Record.file f).target := rfl
      rw [hdb, lease_modifyLease, if_pos hself] at hlease'
      obtain ⟨l, _, hl⟩ := Option.map_eq_some_iff.mp hlease'
      rw [← hl]
      exact fun h => by cases h

end Steps

/-- Cleanup and protection exclude each other. In every reachable state no protected
submission is claimed for cleanup; and in every run whose administrative releases leave no
worker with its DELETE of that file still to send, no DELETE is sent for the object of a
protected submission that is not deleted yet. -/
theorem cleanup_exclusion (length : Duration) :
    (∀ w, (cleanup length).Reach w → Exclusion w.life.db) ∧
    ∀ w, ((cleanup length).guarded World.QuietRelease).Reach w → ∀ k, w.SafeDelete k := by
  refine ⟨fun w hw => exclusion_reach hw, fun w hw k x record token id s hx hphase hs hkey hopen
    hprotects => ?_⟩
  have hreach := hw.of_guarded
  have hlisted := ((remembered_inductive length).reach hreach).working k x record hx
    (by rw [hphase]; rfl)
  cases record with
  | intent r =>
    obtain ⟨y, hy, hdead⟩ := (orphanSound_reach hreach).working k x r hx (by rw [hphase]; rfl)
    have hfree := dead_key_free hreach hy hdead hs
    rw [listed_intent_key hlisted hy] at hfree
    exact hfree hkey
  | file f =>
    obtain ⟨l, hl, hcover⟩ := pendingCovered_reach hw k x f token hx hphase
    obtain ⟨r, hr, hrkey⟩ := Option.map_eq_some_iff.mp hlisted
    have hid := (keysSound_reach hreach).submission_unique hs hr (hkey.trans hrkey.symm)
    subst hid
    rw [hs] at hr
    cases hr
    obtain ⟨r, hr, rfl⟩ := Option.map_eq_some_iff.mp hl
    rw [hs] at hr
    cases hr
    have hsettled := exclusion_reach hreach _ s hs hprotects
    rcases hcover with hdone | htoken
    · exact hdone hopen
    · have htoken : s.cleanupClaimToken ≠ none := htoken
      unfold Submission.cleanupUnfinished at hsettled
      rw [hopen] at hsettled
      simp only [Option.isNone_none, Bool.true_and, Bool.or_eq_false_iff,
        Option.isSome_eq_false_iff, Option.isNone_iff_eq_none] at hsettled
      exact htoken hsettled.2

section Example

/-- A worker claims a due file and sleeps past its lease; a second worker takes the file over
and fails at the provider. -/
def takenAway : List Act :=
  [.life (.claim 7 1 1 (some 1))] ++ (submits 1 [1]).map .life ++
    [.life (.tick (hours (24 * 31))), .start 1, .collectFiles 1 500, .next 1 100,
      .life (.tick (hours (24 * 32))), .start 2, .collectFiles 2 500, .next 2 200,
      .send 2, .settle 2 .temporary, .finish 2]

def takenFile : FileRecord := ⟨1, ['k'], some (hours (24 * 30)), false, false, false, none⟩

def quietWorld : World := (emptyWorld 50 base_pos).run (hours 1) takenAway

theorem quietWorld_reach : ((cleanup (hours 1)).guarded World.QuietRelease).Reach quietWorld := by
  have hinit : ((ofFun World.Initial (World.perform (hours 1))).guarded
      World.QuietRelease).Reach (emptyWorld 50 (by decide)) := .init (emptyWorld_initial 50 _)
  unfold quietWorld World.run
  refine guarded_foldl hinit takenAway fun e he => ?_
  intro record token l hrelease
  have hmem := mem_traceOf he
  rw [hrelease] at hmem
  simp [takenAway, submits] at hmem

/-- The kept claim of the second worker stops the validation, and the first worker's DELETE
is still for an unprotected file. -/
theorem cleanup_exclusion_kept :
    (quietWorld.life.apply (.startValidation 1 1)).db.claims.get 1 =
        quietWorld.life.db.claims.get 1 ∧
      (quietWorld.workers.get 1).any (fun x => decide (x.phase = .claimed (.file takenFile) 100)) ∧
      Exclusion quietWorld.life.db ∧ quietWorld.SafeDelete 1 :=
  ⟨by decide +kernel, by decide +kernel,
    (cleanup_exclusion (hours 1)).1 quietWorld quietWorld_reach.of_guarded,
    (cleanup_exclusion (hours 1)).2 quietWorld quietWorld_reach 1⟩

/-- An administrator releases the second worker's claim, the validation starts, and the
first worker is about to delete the file under validation. -/
def releasedWorld : World :=
  quietWorld.run (hours 1) [.release takenFile 200, .life (.startValidation 1 1)]

theorem released_delete_unsafe :
    ¬ ∀ w, (cleanup (hours 1)).Reach w → ∀ k, w.SafeDelete k := by
  intro h
  have hreach : (cleanup (hours 1)).Reach releasedWorld :=
    (World.run_trace _ _ _).reach quietWorld_reach.of_guarded
  have hworker : (releasedWorld.workers.get 1).isSome = true := by decide +kernel
  have hsubmission : (releasedWorld.life.db.submissions.get 1).isSome = true := by decide +kernel
  have hclaim : (releasedWorld.life.db.claims.get 1).isSome = true := by decide +kernel
  obtain ⟨x, hx⟩ := Option.isSome_iff_exists.mp hworker
  obtain ⟨s, hs⟩ := Option.isSome_iff_exists.mp hsubmission
  obtain ⟨c, hc⟩ := Option.isSome_iff_exists.mp hclaim
  have hphase : (releasedWorld.workers.get 1).all
      (fun x => decide (x.phase = .claimed (.file takenFile) 100)) = true := by decide +kernel
  have hrow : (releasedWorld.life.db.submissions.get 1).all
      (fun s => decide (s.objectKey = ['k'] ∧ s.deletedAt = none ∧ s.claimId = 1)) = true := by
    decide +kernel
  have hstatus : (releasedWorld.life.db.claims.get 1).all
      (fun c => c.status.ownsFiles) = true := by decide +kernel
  rw [hx, Option.all_some, decide_eq_true_eq] at hphase
  rw [hs, Option.all_some, decide_eq_true_eq] at hrow
  rw [hc, Option.all_some] at hstatus
  obtain ⟨hkey, hdeleted, hof⟩ := hrow
  exact h releasedWorld hreach 1 x (.file takenFile) 100 1 s hx hphase hs hkey hdeleted
    ⟨c, by rw [hof]; exact hc, hstatus⟩

end Example

end CampusQuest.Lifecycle
