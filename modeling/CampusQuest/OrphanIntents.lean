import CampusQuest.CleanupFencing

/-!
The orphan-intent cleanup beside the finalize calls. An intent is claimed for cleanup only
after it has expired without a submission, a finalize refuses it from then on, and its
object key belongs to no other intent; so no submission ever refers to a key that the intent
path has deleted.
-/

namespace CampusQuest.Lifecycle

open Tables Runs System

def World.DeadIntent (w : World) (i : IntentId) : Prop :=
  ∃ x, w.life.db.intents.get i = some x ∧ Dead w.life x

structure OrphanSound (w : World) : Prop where
  claimed : ∀ i x, w.life.db.intents.get i = some x →
    (x.cleanupClaimedAt ≠ none ∨ x.cleanupClaimToken ≠ none) → Dead w.life x
  working : ∀ k x r, w.workers.get k = some x → x.phase.record = some (.intent r) →
    w.DeadIntent r.intentId
  sent : ∀ r, Record.intent r ∈ w.sent → w.DeadIntent r.intentId

section Steps

variable {w w' : World} {length : Duration} {a : Act} {i : IntentId}

theorem Deed.dead (h : Deed length w a w') (hw : Remembered w) (hdead : w.DeadIntent i) :
    w'.DeadIntent i := by
  obtain ⟨x, hx, hdead⟩ := hdead
  rcases h.life_cases hw with hsame | ⟨op, hop⟩
  · unfold World.DeadIntent
    rw [hsame]
    exact ⟨x, hx, hdead⟩
  · obtain ⟨x', hx', hmove⟩ := (apply_effect w.life op).intent_move hx
    unfold World.DeadIntent
    rw [hop]
    exact ⟨x', hx', hmove.dead (now_apply w.life op) hdead⟩

/-- A worker claims an intent only after it has expired without a submission. -/
theorem Claimable.dead {r : IntentRecord} {k : WorkerId} {x : Worker} (hw : Remembered w)
    (hx : w.workers.get k = some x) (h : Claimable w.life.db x.now (.intent r)) :
    w.DeadIntent r.intentId := by
  obtain ⟨y, hy, hexpired, hunfinalized, _⟩ := h
  exact ⟨y, hy, hunfinalized, Or.inr (hexpired.trans (hw.clock k x hx))⟩

/-- A worker that has a record now had it before, or it has just claimed it. -/
theorem Deed.record_cases (h : Deed length w a w') {k : WorkerId} {x' : Worker}
    {record : Record} (hx' : w'.workers.get k = some x') (hrecord : x'.phase.record = some record) :
    (∃ x, w.workers.get k = some x ∧ x.phase.record = some record) ∨
      ∃ x, w.workers.get k = some x ∧ Claimable w.life.db x.now record := by
  have hput : ∀ {j : WorkerId} {y : Worker}, (w.workers.put j y).get k = some x' →
      (k = j ∧ x' = y) ∨ ∃ x, w.workers.get k = some x ∧ x.phase.record = some record := by
    intro j y hget
    rcases Table.get_put_eq_some hget with hnew | ⟨_, hold⟩
    · exact Or.inl hnew
    · exact Or.inr ⟨x', hold, hrecord⟩
  cases h with
  | idle | life | held | released | peeked | finalized => exact Or.inl ⟨x', hx', hrecord⟩
  | started j =>
    rcases hput hx' with ⟨_, rfl⟩ | hold
    · cases hrecord
    · exact Or.inl hold
  | waiting _ j y y' hy hidle hidle' =>
    rcases hput hx' with ⟨_, rfl⟩ | hold
    · rw [hidle'] at hrecord
      cases hrecord
    · exact Or.inl hold
  | claimed j token y y' r hy hidle hnow hqueue hphase hfresh hclaimable =>
    rcases hput hx' with ⟨rfl, rfl⟩ | hold
    · rw [hphase] at hrecord
      cases hrecord
      exact Or.inr ⟨y, hy, hclaimable⟩
    · exact Or.inl hold
  | sent j y r token hy hphase =>
    rcases hput hx' with ⟨rfl, rfl⟩ | hold
    · exact Or.inl ⟨y, hy, by rw [hphase]; exact hrecord⟩
    · exact Or.inl hold
  | settled j outcome y r token hy hphase =>
    rcases hput hx' with ⟨rfl, rfl⟩ | hold
    · exact Or.inl ⟨y, hy, by rw [hphase]; exact hrecord⟩
    · exact Or.inl hold
  | finished j y y' r token outcome hy hphase hidle =>
    rcases hput hx' with ⟨_, rfl⟩ | hold
    · rw [hidle] at hrecord
      cases hrecord
    · exact Or.inl hold
  | dropped _ j => exact Or.inl ⟨x', Table.get_of_remove hx', hrecord⟩

/-- A DELETE that is sent is sent by a worker for the record it has claimed. -/
theorem Deed.sent_cases (h : Deed length w a w') {record : Record} (hmem : record ∈ w'.sent) :
    record ∈ w.sent ∨ ∃ k x, w.workers.get k = some x ∧ x.phase.record = some record := by
  cases h with
  | idle | life | held | started | waiting | claimed | settled | finished | dropped | released
    | peeked | finalized => exact Or.inl hmem
  | sent k x r token hx hphase =>
    rcases List.mem_append.mp hmem with hold | hnew
    · exact Or.inl hold
    · rw [List.mem_singleton.mp hnew]
      exact Or.inr ⟨k, x, hx, by rw [hphase]; rfl⟩

theorem orphanSound_reach (hw : (cleanup length).Reach w) : OrphanSound w := by
  refine reach_induction (remembered_inductive length) ?_ ?_ hw
  · intro w hinit
    refine ⟨fun i x hx => ?_, fun k x r hx => ?_, fun r hmem => ?_⟩
    · rw [hinit.life.intents, Table.get_empty] at hx
      cases hx
    · rw [hinit.workers, Table.get_empty] at hx
      cases hx
    · rw [hinit.sent] at hmem
      cases hmem
  · rintro w a _ hw hs rfl
    have hdeed := perform_deed length w a
    refine ⟨fun i x' hx' hclaimed => ?_, fun k x' r hx' hrecord => ?_, fun r hmem => ?_⟩
    · have hlease' : (w.perform length a).life.db.lease (.intent i) = some x'.lease :=
        Option.map_eq_some_iff.mpr ⟨x', hx', rfl⟩
      have hback : w.DeadIntent i → Dead (w.perform length a).life x' := by
        intro hdead
        obtain ⟨y, hy, hdead⟩ := hdeed.dead hw hdead
        rw [hx'] at hy
        cases hy
        exact hdead
      cases hold : w.life.db.lease (.intent i) with
      | none =>
        have hnew := hdeed.lease_made hw hold hlease'
        have hclaimedAt : x'.cleanupClaimedAt = none := congrArg Leases.Lease.claimedAt hnew
        have htoken : x'.cleanupClaimToken = none := congrArg Leases.Lease.token hnew
        rw [hclaimedAt, htoken] at hclaimed
        simp at hclaimed
      | some l =>
        obtain ⟨x, hx, rfl⟩ := Option.map_eq_some_iff.mp hold
        obtain ⟨l', hl', hmove⟩ := hdeed.lease_move hw hold
        rw [hlease', Option.some.injEq] at hl'
        have hbefore : x.lease.token ≠ none → w.DeadIntent i := fun htoken =>
          ⟨x, hx, hs.claimed i x hx (Or.inr htoken)⟩
        cases hmove with
        | same =>
          have hclaimedAt : x'.cleanupClaimedAt = x.cleanupClaimedAt :=
            congrArg Leases.Lease.claimedAt hl'
          have htoken : x'.cleanupClaimToken = x.cleanupClaimToken :=
            congrArg Leases.Lease.token hl'
          rw [hclaimedAt, htoken] at hclaimed
          exact hback ⟨x, hx, hs.claimed i x hx hclaimed⟩
        | taken k y record token stop hy hrecord hclaimable =>
          cases record with
          | file r => cases hrecord
          | intent r =>
            cases hrecord
            exact hback (Claimable.dead hw hy hclaimable)
        | finished token at' htoken => exact hback (hbefore (by rw [htoken]; simp))
        | released _ token _ htoken => exact hback (hbefore (by rw [htoken]; simp))
        | repaired _ _ _ ht => cases ht
    · rcases hdeed.record_cases hx' hrecord with ⟨x, hx, hold⟩ | ⟨x, hx, hclaimable⟩
      · exact hdeed.dead hw (hs.working k x r hx hold)
      · exact hdeed.dead hw (Claimable.dead hw hx hclaimable)
    · rcases hdeed.sent_cases hmem with hold | ⟨k, x, hx, hrecord⟩
      · exact hdeed.dead hw (hs.sent r hold)
      · exact hdeed.dead hw (hs.working k x r hx hrecord)

theorem keysSound_reach (hw : (cleanup length).Reach w) : KeysSound w.life :=
  (cleanup_refines_lifecycle length).invariant keysSound_inductive hw

theorem dead_key_free (hw : (cleanup length).Reach w) {x : UploadIntent}
    (hx : w.life.db.intents.get i = some x) (hdead : Dead w.life x) {id : SubmissionId}
    {r : Submission} (hr : w.life.db.submissions.get id = some r) : r.objectKey ≠ x.objectKey :=
  (keysSound_reach hw).key_free hx hdead.1 hr

/-- A record of the intent path that was listed carries the key of its intent. -/
theorem listed_intent_key {r : IntentRecord} {x : UploadIntent}
    (h : Listed w.life.db (.intent r)) (hx : w.life.db.intents.get r.intentId = some x) :
    x.objectKey = r.objectKey := by
  obtain ⟨y, hy, hkey⟩ := Option.map_eq_some_iff.mp h
  rw [hx] at hy
  cases hy
  exact hkey

theorem Run.dead {l : List (World × Act × World)} (hw : (cleanup length).Reach w)
    (hrun : (cleanup length).Run w l w') (hdead : w.DeadIntent i) : w'.DeadIntent i := by
  refine System.Run.keeps (P := fun u => u.DeadIntent i) (fun u a u' hu hP hstep => ?_) hw hrun
    hdead
  cases hstep
  exact (perform_deed length u a).dead ((remembered_inductive length).reach hu) hP

end Steps

section Results

variable {w w' : World} {length : Duration} {l : List (World × Act × World)}

/-- Orphan-intent cleanup never removes submitted work: in every reachable state no
submission refers to a key whose DELETE the intent path has sent or is about to send; and an
intent that is claimed for cleanup has no submission in any later state. -/
theorem orphan_cleanup_safe (hw : (cleanup length).Reach w) (hrun : (cleanup length).Run w l w') :
    (∀ r, Record.intent r ∈ w.sent → ∀ id s, w'.life.db.submissions.get id = some s →
      s.objectKey ≠ r.objectKey) ∧
    (∀ k x r, w.workers.get k = some x → x.phase.record = some (.intent r) →
      ∀ id s, w'.life.db.submissions.get id = some s → s.objectKey ≠ r.objectKey) ∧
    ∀ i x, w.life.db.intents.get i = some x →
      (x.cleanupClaimedAt ≠ none ∨ x.cleanupClaimToken ≠ none) →
      ∃ x', w'.life.db.intents.get i = some x' ∧ x'.finalizedSubmissionId = none ∧
        ∀ id s, w'.life.db.submissions.get id = some s → s.objectKey ≠ x.objectKey := by
  have hsound := orphanSound_reach hw
  have hremembered := (remembered_inductive length).reach hw
  have hfree : ∀ i x, w.life.db.intents.get i = some x → Dead w.life x →
      ∃ x', w'.life.db.intents.get i = some x' ∧ x'.finalizedSubmissionId = none ∧
        ∀ id s, w'.life.db.submissions.get id = some s → s.objectKey ≠ x.objectKey := by
    intro i x hx hdead
    obtain ⟨x', hx', hdead'⟩ := Run.dead hw hrun ⟨x, hx, hdead⟩
    have hkey : w'.life.db.keyOf (.intent i) = some x.objectKey := by
      refine System.Run.keeps (P := fun u => u.life.db.keyOf (.intent i) = some x.objectKey)
        (fun u a u' hu hP hstep => ?_) hw hrun (Option.map_eq_some_iff.mpr ⟨x, hx, rfl⟩)
      cases hstep
      have hu' := (remembered_inductive length).reach hu
      exact ((perform_deed length u a).grows hu').key _ _ hP
    obtain ⟨y, hy, hsame⟩ := Option.map_eq_some_iff.mp hkey
    rw [hx'] at hy
    cases hy
    refine ⟨x', hx', hdead'.1, fun id s hs => ?_⟩
    rw [← hsame]
    exact dead_key_free (hrun.reach hw) hx' hdead' hs
  refine ⟨fun r hmem => ?_, fun k x r hx hrecord => ?_, fun i x hx hclaimed => ?_⟩
  · obtain ⟨x, hx, hdead⟩ := hsound.sent r hmem
    obtain ⟨_, _, _, hkeys⟩ := hfree r.intentId x hx hdead
    rw [← listed_intent_key (hremembered.sent _ hmem) hx]
    exact hkeys
  · obtain ⟨y, hy, hdead⟩ := hsound.working k x r hx hrecord
    obtain ⟨_, _, _, hkeys⟩ := hfree r.intentId y hy hdead
    rw [← listed_intent_key (hremembered.working k x _ hx hrecord) hy]
    exact hkeys
  · exact hfree i x hx (hsound.claimed i x hx hclaimed)

/-- A finalize call that has seen its object is overtaken by the cleanup of its intent. -/
def overtaken : List Act :=
  [.life (.claim 7 1 1 (some 1)), .life (.createIntent 7 1 1 ['k'] .csv 10),
    .peek 1 7 1 (some ⟨10, FileType.csv.contentType⟩), .life (.tick (minutes 15)),
    .start 1, .collectIntents 1 500, .next 1 100, .send 1]

theorem orphan_cleanup_safe_overtaken :
    let w := (emptyWorld 50 (by decide)).run (hours 1) overtaken
    let w' := w.run (hours 1) [.finalize 1 1, .settle 1 .deleted, .finish 1]
    w.sent = [.intent ⟨1, ['k']⟩] ∧
    (∀ r, Record.intent r ∈ w.sent → ∀ id s, w'.life.db.submissions.get id = some s →
      s.objectKey ≠ r.objectKey) ∧
    (∀ k x r, w.workers.get k = some x → x.phase.record = some (.intent r) →
      ∀ id s, w'.life.db.submissions.get id = some s → s.objectKey ≠ r.objectKey) ∧
    ∀ i x, w.life.db.intents.get i = some x →
      (x.cleanupClaimedAt ≠ none ∨ x.cleanupClaimToken ≠ none) →
      ∃ x', w'.life.db.intents.get i = some x' ∧ x'.finalizedSubmissionId = none ∧
        ∀ id s, w'.life.db.submissions.get id = some s → s.objectKey ≠ x.objectKey :=
  ⟨by decide +kernel, orphan_cleanup_safe (reach_emptyWorld _ 50 (by decide) overtaken)
    (World.run_trace _ _ _)⟩

end Results

end CampusQuest.Lifecycle
