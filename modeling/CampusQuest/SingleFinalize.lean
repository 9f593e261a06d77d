import CampusQuest.OrphanIntents

/-!
Finalize is single-use. Whatever calls overlap, an intent leads to at most one submission, a
replay answers with that one and writes nothing, a burned or expired intent leads to none,
and the versions of a claim are numbered in the order of their submission.
-/

namespace CampusQuest.Lifecycle

open Tables Runs System Guards

/-- The step makes a submission of the intent's object. -/
def Yields (i : IntentId) (e : World × Act × World) : Prop :=
  ∃ x id r, e.2.2.life.db.intents.get i = some x ∧ e.1.life.db.submissions.get id = none ∧
    e.2.2.life.db.submissions.get id = some r ∧ r.objectKey = x.objectKey

/-- What single use promises of a run from `w` through the steps `l` to `w'`. -/
structure SingleUse (w : World) (l : List (World × Act × World)) (w' : World) : Prop where
  once : ∀ i, l.Pairwise fun e e' => ¬ (Yields i e ∧ Yields i e')
  owned : ∀ id r, w'.life.db.submissions.get id = some r →
    ∃! i, ∃ x, w'.life.db.intents.get i = some x ∧ x.finalizedSubmissionId = some id
  kept : ∀ i x id, w.life.db.intents.get i = some x → x.finalizedSubmissionId = some id →
    ∃ x', w'.life.db.intents.get i = some x' ∧ x'.finalizedSubmissionId = some id
  replay : ∀ i x id c call new, w.life.db.intents.get i = some x →
    x.finalizedSubmissionId = some id → w'.calls.get c = some call → call.intentId = i →
      ∃ r claim, w'.life.db.submissions.get id = some r ∧ r.objectKey = x.objectKey ∧
        w'.life.db.claims.get x.claimId = some claim ∧ (w'.finalize c new).life = w'.life ∧
          (claim.userId = call.user →
            requireActiveStudent .uploaderNotStudent w'.life.db call.user = .ok () →
              w'.answer call new = .ok (.ok r, w'.life.db))
  dead : ∀ i x, w.life.db.intents.get i = some x → x.finalizedSubmissionId = none →
    (x.consumedAt ≠ none ∨ x.expiresAt ≤ w.life.now) →
      ∃ x', w'.life.db.intents.get i = some x' ∧ x'.finalizedSubmissionId = none ∧
        ∀ id r, w'.life.db.submissions.get id = some r → r.objectKey ≠ x.objectKey
  versions : ∀ k, ∃ n, (∀ v, (∃ id r, w'.life.db.submissions.get id = some r ∧ r.claimId = k ∧
    r.version = v) ↔ 1 ≤ v ∧ v ≤ n) ∧
      ∀ id id' r r', w'.life.db.submissions.get id = some r →
        w'.life.db.submissions.get id' = some r' → r.claimId = k → r'.claimId = k →
          (r.version = r'.version → id = id') ∧
            (r.version ≤ r'.version → r.submittedAt ≤ r'.submittedAt)

section Proof

variable {w w' : World} {length : Duration} {l : List (World × Act × World)}

theorem numbered_reach (hw : (cleanup length).Reach w) : Numbered w.life :=
  (cleanup_refines_lifecycle length).invariant numbered_inductive hw

theorem pointed_reach (hw : (cleanup length).Reach w) : Pointed w.life :=
  (cleanup_refines_lifecycle length).invariant pointed_inductive hw

/-- A finalized intent keeps its submission, its key and its claim. -/
theorem finalized_kept (hw : (cleanup length).Reach w) (hrun : (cleanup length).Run w l w')
    {i : IntentId} {x : UploadIntent} {id : SubmissionId} (hx : w.life.db.intents.get i = some x)
    (hid : x.finalizedSubmissionId = some id) :
    ∃ x', w'.life.db.intents.get i = some x' ∧ x'.finalizedSubmissionId = some id ∧
      SameIntent x x' := by
  have hstart : ∃ x', w.life.db.intents.get i = some x' ∧ x'.finalizedSubmissionId = some id ∧
      SameIntent x x' := ⟨x, hx, hid, rfl, rfl, rfl⟩
  refine (cleanup_refines_lifecycle length).keeps (P := fun s => ∃ x',
    s.db.intents.get i = some x' ∧ x'.finalizedSubmissionId = some id ∧ SameIntent x x')
    (fun s op s' _ hbefore hstep => ?_) hw hrun hstart
  cases hstep
  obtain ⟨y, hy, hid', hsame⟩ := hbefore
  obtain ⟨y', hy', hmove⟩ := (apply_effect s op).intent_move hy
  have hsame' := hmove.sameIntent
  exact ⟨y', hy', hmove.finalized_stays hid', hsame'.claimId.trans hsame.claimId,
    hsame'.objectKey.trans hsame.objectKey, hsame'.expiresAt.trans hsame.expiresAt⟩

def World.Yielded (w : World) (i : IntentId) : Prop :=
  ∃ x id r, w.life.db.intents.get i = some x ∧ w.life.db.submissions.get id = some r ∧
    r.objectKey = x.objectKey

/-- An intent that has led to a submission always has, and leads to no other one. -/
theorem yields_once (i : IntentId) (hw : (cleanup length).Reach w)
    (hrun : (cleanup length).Run w l w') :
    l.Pairwise fun e e' => ¬ (Yields i e ∧ Yields i e') := by
  have hkeep : ∀ u a u', (cleanup length).Reach u → (cleanup length).step u a u' →
      u.Yielded i → u'.Yielded i := by
    rintro u a _ hu rfl ⟨x, id, r, hx, hr, hkey⟩
    have hgrows := (perform_deed length u a).grows ((remembered_inductive length).reach hu)
    have hintent := hgrows.key (.intent i) _ (Option.map_eq_some_iff.mpr ⟨x, hx, rfl⟩)
    have hfile := hgrows.key (.file id) _ (Option.map_eq_some_iff.mpr ⟨r, hr, rfl⟩)
    obtain ⟨x', hx', hxkey⟩ := Option.map_eq_some_iff.mp hintent
    obtain ⟨r', hr', hrkey⟩ := Option.map_eq_some_iff.mp hfile
    exact ⟨x', id, r', hx', hr', by rw [hrkey, hxkey, hkey]⟩
  refine (hrun.at_most_once (Q := fun u => u.Yielded i) hkeep (fun u a u' hu hstep hyields => ?_)
    hw).1
  obtain ⟨x, id, r, hx, hnone, hr, hkey⟩ := hyields
  have hnew : u'.Yielded i := ⟨x, id, r, hx, hr, hkey⟩
  refine ⟨?_, hnew⟩
  rintro ⟨x₀, id₀, r₀, hx₀, hr₀, hkey₀⟩
  cases hstep
  have hgrows := (perform_deed length u a).grows ((remembered_inductive length).reach hu)
  have hintent := hgrows.key (.intent i) _ (Option.map_eq_some_iff.mpr ⟨x₀, hx₀, rfl⟩)
  have hfile := hgrows.key (.file id₀) _ (Option.map_eq_some_iff.mpr ⟨r₀, hr₀, rfl⟩)
  obtain ⟨x', hx', hxkey⟩ := Option.map_eq_some_iff.mp hintent
  obtain ⟨r', hr', hrkey⟩ := Option.map_eq_some_iff.mp hfile
  rw [hx] at hx'
  cases hx'
  have hsame : id₀ = id := (keysSound_reach (.step hu rfl)).submission_unique hr' hr
    (by rw [hrkey, hkey, hxkey, hkey₀])
  rw [hsame, hnone] at hr₀
  cases hr₀

/-- The locked section of a replay answers with the submission that is there. -/
theorem replay_answer (hw : (cleanup length).Reach w) {c : CallId} {call : FinalizeCall}
    (new : SubmissionId) {x : UploadIntent} {id : SubmissionId} {r : Submission}
    {claim : AssignmentClaim}
    (hcall : w.calls.get c = some call) (hx : w.life.db.intents.get call.intentId = some x)
    (hid : x.finalizedSubmissionId = some id) (hr : w.life.db.submissions.get id = some r)
    (hclaim : w.life.db.claims.get x.claimId = some claim) :
    (w.finalize c new).life = w.life ∧ (claim.userId = call.user →
      requireActiveStudent .uploaderNotStudent w.life.db call.user = .ok () →
        w.answer call new = .ok (.ok r, w.life.db)) := by
  obtain ⟨x', hx', hlocator⟩ := ((remembered_inductive length).reach hw).calls c call hcall
  rw [hx] at hx'
  cases hx'
  have hanswer : w.answer call new =
      finalizeUpload w.life.db w.life.now call.user call.intentId new call.head :=
    finalizeLocated_eq hx hlocator
  have hlife : (w.finalize c new).life = w.life.commit (w.answer call new) := by
    unfold World.finalize
    simp only [hcall]
  constructor
  · rw [hlife, hanswer]
    cases hresult : finalizeUpload w.life.db w.life.now call.user call.intentId new call.head with
    | error e => rfl
    | ok result =>
      have hunconsumed : x.consumedAt ≠ none :=
        x.finalized_implies_consumed (by rw [hid]; exact fun h => by cases h)
      rcases finalizeUpload_ok hresult with ⟨_, _, _, _, _, _, _, hdb⟩ | ⟨y, _, _, hopen, _⟩ |
        ⟨y, _, _, _, _, hopen, _⟩
      · change { w.life with db := result.2 } = w.life
        rw [hdb]
      · have hfound := hopen.found
        rw [hx] at hfound
        cases hfound
        exact absurd hopen.unconsumed hunconsumed
      · have hfound := hopen.found
        rw [hx] at hfound
        cases hfound
        exact absurd hopen.unconsumed hunconsumed
  · intro howner hactive
    rw [hanswer]
    unfold finalizeUpload
    rw [hx, orRefuse_some_bind, hactive]
    change (orRefuse _ (w.life.db.claims.get x.claimId) >>= _) = _
    rw [hclaim, orRefuse_some_bind, ensure_true_bind howner, hid]
    change (orRefuse _ (w.life.db.submissions.get id) >>= _) = _
    rw [hr]
    rfl

/-- Finalize is single-use along every run from every reachable state. -/
theorem finalize_single_use (hw : (cleanup length).Reach w)
    (hrun : (cleanup length).Run w l w') : SingleUse w l w' := by
  have hw' := hrun.reach hw
  have hkeys := keysSound_reach hw'
  have hnumbered := numbered_reach hw'
  refine ⟨fun i => yields_once i hw hrun, fun id r hr => hkeys.origin_unique hr,
    fun i x id hx hid => ?_, fun i x id c call new hx hid hcall hi => ?_,
    fun i x hx hunfinalized hover => ?_, fun k => ⟨w'.life.db.maxVersion k,
      hnumbered.versions k, fun id id' r r' hr hr' hk hk' => ⟨fun hversion => ?_, fun hle => ?_⟩⟩⟩
  · obtain ⟨x', hx', hid', _⟩ := finalized_kept hw hrun hx hid
    exact ⟨x', hx', hid'⟩
  · subst hi
    obtain ⟨x', hx', hid', hsame⟩ := finalized_kept hw hrun hx hid
    obtain ⟨r, hr, hkey, hclaimId⟩ := hkeys.product call.intentId x' id hx' hid'
    obtain ⟨claim, _, _, hclaim, _⟩ := (pointed_reach hw').newest id r hr
    rw [hclaimId] at hclaim
    obtain ⟨hlife, hreplay⟩ := replay_answer hw' new hcall hx' hid' hr hclaim
    refine ⟨r, claim, hr, hkey.trans hsame.objectKey, ?_, hlife, hreplay⟩
    rw [← hsame.claimId]
    exact hclaim
  · obtain ⟨x', hx', hdead⟩ := Run.dead hw hrun ⟨x, hx, hunfinalized, hover⟩
    have hgrows : w'.life.db.keyOf (.intent i) = some x.objectKey := by
      refine (cleanup_refines_lifecycle length).keeps
        (P := fun s => s.db.keyOf (.intent i) = some x.objectKey)
        (fun s op s' _ hbefore hstep => ?_) hw hrun (Option.map_eq_some_iff.mpr ⟨x, hx, rfl⟩)
      cases hstep
      exact keyOf_apply s op hbefore
    obtain ⟨y, hy, hsame⟩ := Option.map_eq_some_iff.mp hgrows
    rw [hx'] at hy
    cases hy
    refine ⟨x', hx', hdead.1, fun id r hr => ?_⟩
    rw [← hsame]
    exact dead_key_free hw' hx' hdead hr
  · exact hnumbered.single id id' r r' hr hr' (hk.trans hk'.symm) hversion
  · exact hnumbered.ordered id id' r r' hr hr' (hk.trans hk'.symm) hle

end Proof

/-- Two finalize calls of one intent that both saw it open, and one of another intent. -/
def duplicates : List Act :=
  [.life (.claim 7 1 1 (some 1)), .life (.createIntent 7 1 1 ['a'] .csv 10),
    .life (.createIntent 7 1 2 ['b'] .csv 10),
    .peek 1 7 1 (some ⟨10, FileType.csv.contentType⟩),
    .peek 2 7 1 (some ⟨10, FileType.csv.contentType⟩),
    .peek 3 7 2 (some ⟨10, FileType.csv.contentType⟩)]

theorem finalize_single_use_duplicates :
    let w := (emptyWorld 50 (by decide)).run (hours 1) duplicates
    let acts := [Act.finalize 1 1, .finalize 3 2, .finalize 2 3]
    let w' := w.run (hours 1) acts
    (w'.life.db.submissions.keys = {1, 2} ∧
      (w'.life.db.submissions.get 2).map Submission.version = some 2) ∧
      SingleUse w (w.trace (hours 1) acts) w' :=
  ⟨by decide +kernel, finalize_single_use (reach_emptyWorld _ 50 (by decide) duplicates)
    (World.run_trace _ _ _)⟩

end CampusQuest.Lifecycle
