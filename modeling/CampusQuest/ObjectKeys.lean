import CampusQuest.ClaimInvariants

/-!
Submissions, their intents and their objects. An object key belongs to one intent, a
submission comes from the one intent that was finalized for it, and the versions of a claim
are numbered without a gap in the order of their submission. An intent that was burned or
has expired never makes a submission.
-/

namespace CampusQuest.Lifecycle

open Tables Runs System

structure SameIntent (x x' : UploadIntent) : Prop where
  claimId : x'.claimId = x.claimId
  objectKey : x'.objectKey = x.objectKey
  expiresAt : x'.expiresAt = x.expiresAt

section IntentMoves

variable {s : State} {db' : Db} {op : Op} {i : IntentId} {x x' : UploadIntent}

theorem IntentMove.sameIntent (h : IntentMove s db' op i x x') : SameIntent x x' := by
  cases h <;> exact ⟨rfl, rfl, rfl⟩

/-- A consumed intent keeps its instant and its submission. -/
theorem IntentMove.consumed (h : IntentMove s db' op i x x') (hconsumed : x.consumedAt ≠ none) :
    x'.consumedAt = x.consumedAt ∧ x'.finalizedSubmissionId = x.finalizedSubmissionId := by
  cases h with
  | same | cleaned => exact ⟨rfl, rfl⟩
  | burned _ _ _ _ _ _ hopen => exact absurd hopen.unconsumed hconsumed
  | finalized _ _ _ _ _ _ _ hopen => exact absurd hopen.unconsumed hconsumed

theorem IntentMove.finalized_stays (h : IntentMove s db' op i x x') {id : SubmissionId}
    (hid : x.finalizedSubmissionId = some id) : x'.finalizedSubmissionId = some id := by
  have hconsumed : x.consumedAt ≠ none :=
    x.finalized_implies_consumed (by rw [hid]; exact fun h => by cases h)
  rw [(h.consumed hconsumed).2, hid]

end IntentMoves

/-- An intent whose time is over or that was burned, and that made no submission. -/
def Dead (s : State) (x : UploadIntent) : Prop :=
  x.finalizedSubmissionId = none ∧ (x.consumedAt ≠ none ∨ x.expiresAt ≤ s.now)

theorem IntentMove.dead {s : State} {op : Op} {i : IntentId} {x x' : UploadIntent}
    (h : IntentMove s (s.apply op).db op i x x') (hnow : s.now ≤ (s.apply op).now)
    (hdead : Dead s x) : Dead (s.apply op) x' := by
  obtain ⟨hunfinalized, hover⟩ := hdead
  have hlapsed : x.consumedAt = none → ¬ s.now < x.expiresAt := by
    intro hunconsumed
    rcases hover with hconsumed | hexpired
    · exact absurd hunconsumed hconsumed
    · exact not_lt.mpr hexpired
  cases h with
  | same | cleaned =>
    refine ⟨hunfinalized, ?_⟩
    rcases hover with hconsumed | hexpired
    · exact Or.inl hconsumed
    · exact Or.inr (hexpired.trans hnow)
  | burned _ _ _ _ _ _ hopen => exact absurd hopen.unexpired (hlapsed hopen.unconsumed)
  | finalized _ _ _ _ _ _ _ hopen => exact absurd hopen.unexpired (hlapsed hopen.unconsumed)

/-- Object keys are granted once, and submissions and finalized intents point at each
other under one key. -/
structure KeysSound (s : State) : Prop where
  unique : ∀ i j x y, s.db.intents.get i = some x → s.db.intents.get j = some y →
    x.objectKey = y.objectKey → i = j
  origin : ∀ id r, s.db.submissions.get id = some r → ∃ i x, s.db.intents.get i = some x ∧
    x.finalizedSubmissionId = some id ∧ x.objectKey = r.objectKey ∧ x.claimId = r.claimId
  product : ∀ i x id, s.db.intents.get i = some x → x.finalizedSubmissionId = some id →
    ∃ r, s.db.submissions.get id = some r ∧ r.objectKey = x.objectKey ∧ r.claimId = x.claimId

theorem keysSound_inductive : lifecycle.Inductive KeysSound := by
  constructor
  · intro s hinit
    refine ⟨fun i j x y hx => ?_, fun id r hr => ?_, fun i x id hx => ?_⟩
    · rw [hinit.intents, Table.get_empty] at hx
      cases hx
    · rw [hinit.submissions, Table.get_empty] at hr
      cases hr
    · rw [hinit.intents, Table.get_empty] at hx
      cases hx
  · rintro s op _ hs rfl
    refine ⟨fun i j x y hx hy hkey => ?_, fun id r' hr' => ?_, fun i x' id hx' hid => ?_⟩
    · rcases intent_step hx with hmade | ⟨x₀, hx₀, hmove⟩
      · rcases intent_step hy with hmade' | ⟨y₀, hy₀, hmove'⟩
        · cases hmade
          cases hmade'
          rfl
        · cases hmade with
          | granted _ _ _ _ _ _ _ hfree =>
            exact absurd ⟨j, y₀, hy₀, hmove'.sameIntent.objectKey.symm.trans hkey.symm⟩ hfree
      · rcases intent_step hy with hmade' | ⟨y₀, hy₀, hmove'⟩
        · cases hmade' with
          | granted _ _ _ _ _ _ _ hfree =>
            exact absurd ⟨i, x₀, hx₀, hmove.sameIntent.objectKey.symm.trans hkey⟩ hfree
        · apply hs.unique i j x₀ y₀ hx₀ hy₀
          rw [← hmove.sameIntent.objectKey, ← hmove'.sameIntent.objectKey, hkey]
    · rcases submission_step hr' with hmade | ⟨r, hr, hmove⟩
      · cases hmade with
        | finalized user intentId _ head intent claim size policy hsize _ _ _ _ _ _ hconsumed =>
          exact ⟨intentId, _, hconsumed, rfl, rfl, rfl⟩
      · obtain ⟨i, x, hx, hid, hkey, hclaim⟩ := hs.origin id r hr
        obtain ⟨x', hx', hintent⟩ := (apply_effect s op).intent_move hx
        refine ⟨i, x', hx', hintent.finalized_stays hid, ?_, ?_⟩
        · rw [hintent.sameIntent.objectKey, hmove.sameSubmission.objectKey, hkey]
        · rw [hintent.sameIntent.claimId, hmove.sameSubmission.claimId, hclaim]
    · rcases intent_step hx' with hmade | ⟨x, hx, hmove⟩
      · cases hmade
        cases hid
      · have hkept : x.finalizedSubmissionId = some id →
            ∃ r, (s.apply op).db.submissions.get id = some r ∧ r.objectKey = x'.objectKey ∧
              r.claimId = x'.claimId := by
          intro hold
          obtain ⟨r, hr, hkey, hclaim⟩ := hs.product i x id hx hold
          obtain ⟨r', hr', hsame⟩ := submission_frame s op id r hr
          refine ⟨r', hr', ?_, ?_⟩
          · rw [hsame.objectKey, hmove.sameIntent.objectKey, hkey]
          · rw [hsame.claimId, hmove.sameIntent.claimId, hclaim]
        cases hmove with
        | same => exact hkept hid
        | cleaned => exact hkept hid
        | burned => cases hid
        | finalized user _ id' head _ claim r _ _ hnew hkey hclaim =>
          cases hid
          exact ⟨r, hnew, hkey, hclaim⟩

namespace KeysSound

variable {s : State}

/-- An object belongs to at most one submission. -/
theorem submission_unique (hs : KeysSound s) {id id' : SubmissionId} {r r' : Submission}
    (hr : s.db.submissions.get id = some r) (hr' : s.db.submissions.get id' = some r')
    (hkey : r.objectKey = r'.objectKey) : id = id' := by
  obtain ⟨i, x, hx, hid, hxr, _⟩ := hs.origin id r hr
  obtain ⟨j, y, hy, hid', hyr, _⟩ := hs.origin id' r' hr'
  have hij := hs.unique i j x y hx hy (by rw [hxr, hyr, hkey])
  subst hij
  rw [hx] at hy
  cases hy
  rw [hid] at hid'
  cases hid'
  rfl

theorem key_free (hs : KeysSound s) {i : IntentId} {x : UploadIntent}
    (hx : s.db.intents.get i = some x) (hnone : x.finalizedSubmissionId = none)
    {id : SubmissionId} {r : Submission} (hr : s.db.submissions.get id = some r) :
    r.objectKey ≠ x.objectKey := by
  intro hkey
  obtain ⟨j, y, hy, hid, hyr, _⟩ := hs.origin id r hr
  have hij := hs.unique i j x y hx hy (by rw [hyr, hkey])
  subst hij
  rw [hx] at hy
  cases hy
  rw [hnone] at hid
  cases hid

/-- Each submission comes from exactly one intent. -/
theorem origin_unique (hs : KeysSound s) {id : SubmissionId} {r : Submission}
    (hr : s.db.submissions.get id = some r) :
    ∃! i, ∃ x, s.db.intents.get i = some x ∧ x.finalizedSubmissionId = some id := by
  obtain ⟨i, x, hx, hid, hkey, _⟩ := hs.origin id r hr
  refine ⟨i, ⟨x, hx, hid⟩, ?_⟩
  rintro j ⟨y, hy, hid'⟩
  obtain ⟨r', hr', hkey', _⟩ := hs.product j y id hy hid'
  rw [hr] at hr'
  cases hr'
  exact hs.unique j i y x hy hx (by rw [← hkey', hkey])

end KeysSound

/-- The versions of each claim are numbered from one without a gap and without a double, and
a later version was not submitted earlier. -/
structure Numbered (s : State) : Prop where
  single : ∀ id id' r r', s.db.submissions.get id = some r → s.db.submissions.get id' = some r' →
    r.claimId = r'.claimId → r.version = r'.version → id = id'
  filled : ∀ id r v, s.db.submissions.get id = some r → 1 ≤ v → v ≤ r.version →
    ∃ id' r', s.db.submissions.get id' = some r' ∧ r'.claimId = r.claimId ∧ r'.version = v
  ordered : ∀ id id' r r', s.db.submissions.get id = some r →
    s.db.submissions.get id' = some r' → r.claimId = r'.claimId → r.version ≤ r'.version →
      r.submittedAt ≤ r'.submittedAt
  past : ∀ id r, s.db.submissions.get id = some r → r.submittedAt ≤ s.now

section Numbering

variable {s : State} {op : Op} {id : SubmissionId} {r' : Submission}

/-- What the submission that an operation makes is numbered and dated with. -/
theorem SubmissionMade.numbered {db' : Db} (h : SubmissionMade s db' op id r') :
    r'.version = s.db.maxVersion r'.claimId + 1 ∧ r'.submittedAt = s.now := by
  cases h
  exact ⟨rfl, rfl⟩

theorem SubmissionMade.id_eq {db' : Db} {id' : SubmissionId} {r'' : Submission}
    (h : SubmissionMade s db' op id r') (h' : SubmissionMade s db' op id' r'') : id = id' := by
  cases h
  cases h'
  rfl

/-- A submission of before has one of the versions up to the highest. -/
theorem SameSubmission.version_le {r : Submission} (hr : s.db.submissions.get id = some r)
    (h : SameSubmission r r') : r'.version ≤ s.db.maxVersion r'.claimId := by
  rw [h.version, h.claimId]
  exact Db.version_le_maxVersion hr

theorem numbered_inductive : lifecycle.Inductive Numbered := by
  constructor
  · intro s hinit
    refine ⟨fun id id' r r' hr => ?_, fun id r v hr => ?_, fun id id' r r' hr => ?_,
      fun id r hr => ?_⟩
    all_goals
      rw [hinit.submissions, Table.get_empty] at hr
      cases hr
  · rintro s op _ hs rfl
    refine ⟨fun id id' r r' hr hr' hclaim hversion => ?_, fun id r v hr hpos hle => ?_,
      fun id id' r r' hr hr' hclaim hversion => ?_, fun id r hr => ?_⟩
    · rcases submission_step hr with hmade | ⟨r₀, hr₀, hmove⟩
      · rcases submission_step hr' with hmade' | ⟨r₀', hr₀', hmove'⟩
        · exact hmade.id_eq hmade'
        · have hnew := hmade.numbered.1
          have hold := hmove'.sameSubmission.version_le hr₀'
          rw [hclaim] at hnew
          omega
      · rcases submission_step hr' with hmade' | ⟨r₀', hr₀', hmove'⟩
        · have hnew := hmade'.numbered.1
          have hold := hmove.sameSubmission.version_le hr₀
          rw [hclaim] at hold
          omega
        · have hsame := hmove.sameSubmission
          have hsame' := hmove'.sameSubmission
          apply hs.single id id' r₀ r₀' hr₀ hr₀'
          · rw [← hsame.claimId, ← hsame'.claimId, hclaim]
          · rw [← hsame.version, ← hsame'.version, hversion]
    · have hframe : ∀ id₀ r₀, s.db.submissions.get id₀ = some r₀ → r₀.claimId = r.claimId →
          v ≤ r₀.version → ∃ id' r', (s.apply op).db.submissions.get id' = some r' ∧
            r'.claimId = r.claimId ∧ r'.version = v := by
        intro id₀ r₀ hr₀ hclaim hv
        obtain ⟨id₁, r₁, hr₁, hclaim₁, hv₁⟩ := hs.filled id₀ r₀ v hr₀ hpos hv
        obtain ⟨r', hr', hsame⟩ := submission_frame s op id₁ r₁ hr₁
        exact ⟨id₁, r', hr', by rw [hsame.claimId, hclaim₁, hclaim], by rw [hsame.version, hv₁]⟩
      rcases submission_step hr with hmade | ⟨r₀, hr₀, hmove⟩
      · have hnew := hmade.numbered.1
        by_cases hv : v = r.version
        · exact ⟨id, r, hr, rfl, hv.symm⟩
        · rcases s.db.exists_maxVersion r.claimId with hzero | ⟨id₀, r₀, hr₀, hclaim₀, hmax⟩
          · omega
          · exact hframe id₀ r₀ hr₀ hclaim₀ (by omega)
      · have hsame := hmove.sameSubmission
        exact hframe id r₀ hr₀ hsame.claimId.symm (hsame.version ▸ hle)
    · rcases submission_step hr with hmade | ⟨r₀, hr₀, hmove⟩
      · rcases submission_step hr' with hmade' | ⟨r₀', hr₀', hmove'⟩
        · rw [hmade.numbered.2, hmade'.numbered.2]
        · have hnew := hmade.numbered.1
          have hold := hmove'.sameSubmission.version_le hr₀'
          rw [hclaim] at hnew
          omega
      · have hsame := hmove.sameSubmission
        rcases submission_step hr' with hmade' | ⟨r₀', hr₀', hmove'⟩
        · rw [hmade'.numbered.2, hsame.submittedAt]
          exact hs.past id r₀ hr₀
        · have hsame' := hmove'.sameSubmission
          rw [hsame.submittedAt, hsame'.submittedAt]
          apply hs.ordered id id' r₀ r₀' hr₀ hr₀'
          · rw [← hsame.claimId, ← hsame'.claimId, hclaim]
          · rw [← hsame.version, ← hsame'.version]
            exact hversion
    · rcases submission_step hr with hmade | ⟨r₀, hr₀, hmove⟩
      · rw [hmade.numbered.2]
        exact now_apply s op
      · rw [hmove.sameSubmission.submittedAt]
        exact (hs.past id r₀ hr₀).trans (now_apply s op)

/-- The versions of a claim are exactly the numbers up to the highest one. -/
theorem Numbered.versions (hs : Numbered s) (k : ClaimId) (v : ℕ) :
    (∃ id r, s.db.submissions.get id = some r ∧ r.claimId = k ∧ r.version = v) ↔
      1 ≤ v ∧ v ≤ s.db.maxVersion k := by
  constructor
  · rintro ⟨id, r, hr, rfl, rfl⟩
    exact ⟨r.version_pos, Db.version_le_maxVersion hr⟩
  · rintro ⟨hpos, hle⟩
    rcases s.db.exists_maxVersion k with hzero | ⟨id₀, r₀, hr₀, rfl, hmax⟩
    · omega
    · exact hs.filled id₀ r₀ v hr₀ hpos (hmax ▸ hle)

end Numbering

end CampusQuest.Lifecycle
