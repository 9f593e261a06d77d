import CampusQuest.ReviewerExclusivity

/-!
What was reviewed is what is published. A material that is settled never changes its state or
its digest, a late result is not applied, a material that a revision refers to stays, nothing
moves while a case waits, and five materials at most are kept without a reference.
-/

namespace CampusQuest.Innovation

open Guards Tables Runs

section Progress

inductive Progress (now : Instant) (db : ReviewDb) :
    ReviewCall → EvidenceId → AchievementEvidence → AchievementEvidence → Prop
  | same (call : ReviewCall) (id : EvidenceId) (row : AchievementEvidence) :
      Progress now db call id row row
  | marked (call : ReviewCall) (id : EvidenceId) (row : AchievementEvidence)
      (hpending : db.pendingCase row.achievementId = none) :
      Progress now db call id row { row with referenced := true }
  | started {actor : Actor} {projectId : ProjectId} {achievementId : AchievementId}
      {id : EvidenceId} {token : CheckToken} {row : AchievementEvidence}
      (hachievement : row.achievementId = achievementId) (hsettled : row.state.settled = false)
      (hpending : db.pendingCase achievementId = none) (hexpires : now < row.expiresAt) :
      Progress now db (.startCheck actor projectId achievementId id token) id row
        { row with
          state := .checking token (now + checkLease)
          failureCode := none
          version := row.version + 1
          updatedAt := now }
  | finished {actor : Actor} {projectId : ProjectId} {achievementId : AchievementId}
      {id : EvidenceId} {token : CheckToken} {outcome : CheckOutcome} {row : AchievementEvidence}
      (hachievement : row.achievementId = achievementId)
      (htoken : row.state.checkToken = some token)
      (hpending : db.pendingCase achievementId = none) :
      Progress now db (.finishCheck actor projectId achievementId id token outcome) id row
        { row with
          state := outcome.state
          failureCode := outcome.failureCode
          version := row.version + 1
          updatedAt := now }
  | removed (call : ReviewCall) {achievementId : AchievementId} {id : EvidenceId}
      {row : AchievementEvidence} (hachievement : row.achievementId = achievementId)
      (hfree : row.referenced = false) (hpending : db.pendingCase achievementId = none) :
      Progress now db call id row
        { row with removedAt := some now, version := row.version + 1, updatedAt := now }

variable {digests : Fingerprints} {now : Instant} {db db' : ReviewDb} {w w' : ReviewWorld}

theorem mem_materials {achievementId : AchievementId} {ids : List EvidenceId} {id : EvidenceId}
    {sha256 : Text} (h : (id, sha256) ∈ db.materials achievementId ids) :
    ∃ row, db.evidence.get id = some row ∧ row.achievementId = achievementId ∧
      row.state = .ready sha256 ∧ row.removedAt = none := by
  obtain ⟨id', _, heq⟩ := List.mem_filterMap.mp h
  obtain ⟨sha', husable, heq⟩ := Option.map_eq_some_iff.mp heq
  obtain ⟨rfl, rfl⟩ := Prod.mk.inj heq
  obtain ⟨row, hrow, hstate⟩ := Option.bind_eq_some_iff.mp husable
  cases hready : row.state with
  | ready sha =>
    simp only [hready] at hstate
    split at hstate
    next hok =>
      cases hstate
      exact ⟨row, hrow, hok.1, hready, hok.2⟩
    next => cases hstate
  | pending | checking | rejected =>
    simp only [hready] at hstate
    cases hstate

/-- No material disappears, and its row moves in one of these ways. -/
theorem Change.progress {call : ReviewCall} (h : Change digests now db call db') (hdb : w.db = db)
    (hfresh : call.Fresh w) {id : EvidenceId} {row : AchievementEvidence}
    (hrow : db.evidence.get id = some row) :
    ∃ row', db'.evidence.get id = some row' ∧ Progress now db call id row row' := by
  have hput : ∀ (id₀ : EvidenceId) (row₀ row₁ : AchievementEvidence),
      db.evidence.get id₀ = some row₀ → Progress now db call id₀ row₀ row₁ →
      ∃ row', (db.evidence.put id₀ row₁).get id = some row' ∧
        Progress now db call id row row' := by
    intro id₀ row₀ row₁ hrow₀ hprogress
    by_cases heq : id = id₀
    · subst heq
      obtain rfl : row = row₀ := Option.some.inj (hrow.symm.trans hrow₀)
      exact ⟨row₁, Table.get_put_self _ _ _, hprogress⟩
    · exact ⟨row, (Table.get_put_of_ne _ _ heq).trans hrow, .same _ _ _⟩
  cases h with
  | @submitted _ _ achievementId payload _ _ _ revision _ hfreezes =>
    have hget : (db.evidence.updateWhere (fun id _ => id ∈ revision.evidence.map Prod.fst)
        fun row => { row with referenced := true }).get id =
        some (if id ∈ revision.evidence.map Prod.fst then { row with referenced := true }
          else row) := by
      rw [Table.get_updateWhere, hrow]
      rfl
    refine ⟨_, hget, ?_⟩
    split
    next hmem =>
      obtain ⟨⟨id', sha256⟩, hfrozen, rfl⟩ := List.mem_map.mp hmem
      rw [hfreezes.evidence_eq] at hfrozen
      obtain ⟨row', hrow', hachievement, _⟩ := mem_materials hfrozen
      obtain rfl : row = row' := Option.some.inj (hrow.symm.trans hrow')
      refine .marked _ _ _ ?_
      rw [hachievement]
      exact hfreezes.none_pending
    next => exact .same _ _ _
  | @created _ _ _ _ evidenceId =>
    subst hdb
    refine ⟨row, ?_, .same _ _ _⟩
    change (w.db.evidence.put evidenceId _).get id = some row
    rw [Table.get_put_of_ne _ _ ?_]
    · exact hrow
    · rintro rfl
      rw [show w.db.evidence.get id = none from hfresh] at hrow
      cases hrow
  | started hrow₀ hachievement _ hsettled hpending hexpires =>
    exact hput _ _ _ hrow₀ (.started hachievement hsettled hpending hexpires)
  | finished hrow₀ hachievement _ htoken hpending =>
    exact hput _ _ _ hrow₀ (.finished hachievement htoken hpending)
  | removed hrow₀ hachievement _ hfree hpending =>
    exact hput _ _ _ hrow₀ (.removed _ hachievement hfree hpending)
  | _ => exact ⟨row, hrow, .same _ _ _⟩

/-- A row of a material was there before, or a request has added it. -/
theorem Change.material_before {call : ReviewCall} (h : Change digests now db call db')
    (hdb : w.db = db) (hfresh : call.Fresh w) {id : EvidenceId} {row' : AchievementEvidence}
    (hrow' : db'.evidence.get id = some row') :
    (∃ row, db.evidence.get id = some row ∧ Progress now db call id row row') ∨
      db.evidence.get id = none ∧ ∃ achievementId payload objectKey,
        row' = ReviewDb.newMaterial digests now achievementId payload objectKey ∧
        db.pendingCase achievementId = none ∧ db.kept achievementId now < 5 ∧
        db'.evidence = db.evidence.put id row' := by
  cases hrow : db.evidence.get id with
  | some row =>
    obtain ⟨row₁, hrow₁, hprogress⟩ := h.progress hdb hfresh hrow
    obtain rfl : row₁ = row' := Option.some.inj (hrow₁.symm.trans hrow')
    exact .inl ⟨row, rfl, hprogress⟩
  | none =>
    refine .inr ⟨rfl, ?_⟩
    have hput : ∀ (id₀ : EvidenceId) (row₀ row₁ : AchievementEvidence),
        db.evidence.get id₀ = some row₀ → (db.evidence.put id₀ row₁).get id ≠ some row' := by
      intro id₀ row₀ row₁ hrow₀ hget
      rcases Table.get_put_eq_some hget with ⟨rfl, _⟩ | ⟨_, hold⟩
      · rw [hrow] at hrow₀
        cases hrow₀
      · rw [hrow] at hold
        cases hold
    cases h with
    | submitted =>
      change (db.evidence.updateWhere _ _).get id = some row' at hrow'
      rw [Table.get_updateWhere, hrow] at hrow'
      cases hrow'
    | @created _ _ achievementId payload evidenceId objectKey hpending hkept =>
      rcases Table.get_put_eq_some hrow' with ⟨rfl, rfl⟩ | ⟨_, hold⟩
      · exact ⟨achievementId, payload, objectKey, rfl, hpending, hkept, rfl⟩
      · rw [hrow] at hold
        cases hold
    | started hrow₀ => exact absurd hrow' (hput _ _ _ hrow₀)
    | finished hrow₀ => exact absurd hrow' (hput _ _ _ hrow₀)
    | removed hrow₀ => exact absurd hrow' (hput _ _ _ hrow₀)
    | _ =>
      rw [show db.evidence.get id = some row' from hrow'] at hrow
      cases hrow

variable {call : ReviewCall} {id : EvidenceId} {row row' : AchievementEvidence}

theorem settled_of_token {state : EvidenceState} {token : CheckToken}
    (h : state.checkToken = some token) : state.settled = false := by
  cases state with
  | checking => rfl
  | pending | ready | rejected => cases h

theorem Progress.achievement (h : Progress now db call id row row') :
    row'.achievementId = row.achievementId := by
  cases h <;> rfl

/-- A settled material keeps its state, and with it its digest. -/
theorem Progress.settled (h : Progress now db call id row row')
    (hsettled : row.state.settled = true) : row'.state = row.state := by
  cases h with
  | started _ hnot =>
    rw [hsettled] at hnot
    cases hnot
  | finished _ htoken =>
    rw [settled_of_token htoken] at hsettled
    cases hsettled
  | _ => rfl

/-- A token on a row was there before, or a check has just put it there. -/
theorem Progress.token (h : Progress now db call id row row') {token : CheckToken}
    (htoken : row'.state.checkToken = some token) :
    row.state.checkToken = some token ∨
      ∃ actor projectId achievementId, call = .startCheck actor projectId achievementId id token := by
  cases h with
  | @started actor projectId achievementId =>
    cases htoken
    exact .inr ⟨actor, projectId, achievementId, rfl⟩
  | @finished _ _ _ _ _ outcome =>
    cases outcome <;> cases htoken
  | _ => exact .inl htoken

/-- A material that is referred to is not removed and stays referred to. -/
theorem Progress.referenced (h : Progress now db call id row row') (href : row.referenced = true) :
    row'.referenced = true ∧ row'.removedAt = row.removedAt := by
  cases h with
  | removed _ _ hfree =>
    rw [href] at hfree
    cases hfree
  | marked => exact ⟨rfl, rfl⟩
  | _ => exact ⟨href, rfl⟩

/-- While a case waits no row of the achievement moves. -/
theorem Progress.pending (h : Progress now db call id row row')
    (hpending : db.pendingCase row.achievementId ≠ none) : row' = row := by
  cases h with
  | same => rfl
  | marked _ _ _ hnone => exact absurd hnone hpending
  | started hof _ hnone => exact absurd (hof ▸ hnone) hpending
  | finished hof _ hnone => exact absurd (hof ▸ hnone) hpending
  | removed _ hof _ hnone => exact absurd (hof ▸ hnone) hpending

/-- What counts after a command at its instant has counted before. -/
theorem Progress.counts (h : Progress now db call id row row') {achievementId : AchievementId}
    (hcounts : row'.Counts achievementId now) : row.Counts achievementId now := by
  obtain ⟨hof, hremoved, hfree, hlive⟩ := hcounts
  cases h with
  | same => exact ⟨hof, hremoved, hfree, hlive⟩
  | marked => cases hfree
  | started _ _ _ hexpires => exact ⟨hof, hremoved, hfree, .inr hexpires⟩
  | finished _ htoken =>
    refine ⟨hof, hremoved, hfree, .inl fun hpending => ?_⟩
    rw [hpending] at htoken
    cases htoken
  | removed => cases hremoved

theorem AchievementEvidence.Counts.earlier {achievementId : AchievementId} {earlier later : Instant}
    (h : row.Counts achievementId later) (hle : earlier ≤ later) :
    row.Counts achievementId earlier :=
  ⟨h.1, h.2.1, h.2.2.1, h.2.2.2.imp_right hle.trans_lt⟩

end Progress

section Invariants

variable {digests : Fingerprints} {now : Instant} {db db' : ReviewDb} {w w' : ReviewWorld}

/-- The materials in every state: a token on a row was handed out for it, what a revision refers
to is there with its digest, and five materials at most count. -/
structure Materials (w : ReviewWorld) : Prop where
  issued : ∀ id row token, w.db.evidence.get id = some row →
    row.state.checkToken = some token → w.attempts.get token = some id
  frozen : ∀ rid r id sha256, w.db.revisions.get rid = some r → (id, sha256) ∈ r.evidence →
    ∃ row, w.db.evidence.get id = some row ∧ row.achievementId = r.achievementId ∧
      row.state = .ready sha256 ∧ row.removedAt = none ∧ row.referenced = true
  few : ∀ achievementId, w.db.kept achievementId w.now ≤ 5

theorem kept_antitone {achievementId : AchievementId} {earlier later : Instant}
    (hle : earlier ≤ later) : db.kept achievementId later ≤ db.kept achievementId earlier :=
  Table.count_le_count fun _ row hrow hcounts => ⟨row, hrow, hcounts.earlier hle⟩

theorem Change.kept {call : ReviewCall} (h : Change digests now db call db') (hdb : w.db = db)
    (hfresh : call.Fresh w) {achievementId : AchievementId} (hfew : db.kept achievementId now ≤ 5) :
    db'.kept achievementId now ≤ 5 := by
  by_cases hnew : ∃ id row', db'.evidence.get id = some row' ∧ db.evidence.get id = none
  · obtain ⟨id, row', hrow', hnone⟩ := hnew
    rcases h.material_before hdb hfresh hrow' with ⟨row, hrow, _⟩ |
      ⟨_, achievementId', payload, objectKey, rfl, _, hkept, heq⟩
    · rw [hnone] at hrow
      cases hrow
    · unfold ReviewDb.kept
      rw [heq]
      have hput := Table.count_put_le
        (fun _ row => AchievementEvidence.Counts achievementId now row) db.evidence id
        (ReviewDb.newMaterial digests now achievementId' payload objectKey)
      refine hput.trans ?_
      split
      next hcounts =>
        obtain rfl : achievementId' = achievementId := hcounts.1
        exact hkept
      next => exact hfew
  · refine le_trans (Table.count_le_count fun id row' hrow' hcounts => ?_) hfew
    rcases h.material_before hdb hfresh hrow' with ⟨row, hrow, hprogress⟩ | ⟨hnone, _⟩
    · exact ⟨row, hrow, hprogress.counts hcounts⟩
    · exact absurd ⟨id, row', hrow', hnone⟩ hnew

/-- A revision was there before, or a submission has frozen it. -/
theorem Change.revision_before {call : ReviewCall} (h : Change digests now db call db')
    {rid : RevisionId} {r : AchievementRevision} (hr : db'.revisions.get rid = some r) :
    db.revisions.get rid = some r ∨ ∃ actor projectId payload operation workflow,
      db.Freezes digests now actor projectId r.achievementId payload operation r workflow ∧
      db'.evidence = db.evidence.updateWhere (fun id _ => id ∈ r.evidence.map Prod.fst)
        fun row => { row with referenced := true } := by
  cases h with
  | @submitted actor projectId achievementId payload operation _ _ revision workflow hfreezes =>
    rcases Table.get_put_eq_some hr with ⟨_, rfl⟩ | ⟨_, hold⟩
    · have hfreezes := hfreezes
      rw [← hfreezes.achievement_eq] at hfreezes
      exact .inr ⟨actor, projectId, payload, operation, workflow, hfreezes, rfl⟩
    · exact .inl hold
  | _ => exact .inl hr

theorem Materials.call {call : ReviewCall} (hw : Materials w) (hnow : w.now ≤ now)
    (hfresh : call.Fresh w) :
    Materials ⟨call.after digests now w.db, now, call.issued w.attempts⟩ := by
  have hchange : Change digests now w.db call (call.after digests now w.db) := change_after call
  constructor
  · intro id row' token hrow' htoken
    rcases hchange.material_before rfl hfresh hrow' with ⟨row, hrow, hprogress⟩ |
      ⟨_, _, _, _, rfl, _⟩
    · rcases hprogress.token htoken with hold | ⟨actor, projectId, achievementId, rfl⟩
      · have hissued := hw.issued id row token hrow hold
        cases call with
        | startCheck actor projectId achievementId evidenceId token' =>
          refine (Table.get_put_of_ne _ _ ?_).trans hissued
          rintro rfl
          rw [show w.attempts.get token = none from hfresh] at hissued
          cases hissued
        | _ => exact hissued
      · exact Table.get_put_self _ _ _
    · cases htoken
  · intro rid r id sha256 hr hmem
    rcases hchange.revision_before hr with hold |
      ⟨actor, projectId, payload, operation, workflow, hfreezes, heq⟩
    · obtain ⟨row, hrow, hof, hstate, hremoved, href⟩ := hw.frozen rid r id sha256 hold hmem
      obtain ⟨row', hrow', hprogress⟩ := hchange.progress rfl hfresh hrow
      obtain ⟨href', hremoved'⟩ := hprogress.referenced href
      refine ⟨row', hrow', hprogress.achievement.trans hof, ?_, hremoved'.trans hremoved, href'⟩
      rw [hprogress.settled (by rw [hstate]; rfl)]
      exact hstate
    · have hmaterial := hmem
      rw [hfreezes.evidence_eq] at hmaterial
      obtain ⟨row, hrow, hof, hstate, hremoved⟩ := mem_materials hmaterial
      refine ⟨{ row with referenced := true }, ?_, hof, hstate, hremoved, rfl⟩
      rw [heq, Table.get_updateWhere, hrow, Option.map_some,
        if_pos (List.mem_map.mpr ⟨(id, sha256), hmem, rfl⟩)]
  · intro achievementId
    exact hchange.kept rfl hfresh ((kept_antitone hnow).trans (hw.few achievementId))

theorem ReviewWorld.Initial.materials (h : w.Initial) : Materials w := by
  constructor
  · intro id row token hrow
    rw [h.evidence] at hrow
    cases hrow
  · intro rid r id sha256 hr
    rw [h.revisions] at hr
    cases hr
  · intro achievementId
    unfold ReviewDb.kept
    rw [h.evidence]
    exact Nat.zero_le 5

theorem materials_of_reach (hw : (reviewSystem digests).Reach w) : Materials w := by
  induction hw with
  | init hinit => exact ReviewWorld.Initial.materials hinit
  | step _ hstep ih =>
    cases hstep with
    | call c hnow hfresh => exact ih.call hnow hfresh
    | elsewhere h =>
      constructor
      · rw [h.evidence]
        exact ih.issued
      · rw [h.evidence, h.revisions]
        exact ih.frozen
      · unfold ReviewDb.kept
        rw [h.evidence]
        exact ih.few

end Invariants

section Results

variable {digests : Fingerprints} {w w' : ReviewWorld}

theorem ReviewStep.progress {call : Option ReviewCall} (h : ReviewStep digests w call w')
    {id : EvidenceId} {row : AchievementEvidence} (hrow : w.db.evidence.get id = some row) :
    w'.db.evidence.get id = some row ∨ ∃ c now row', call = some c ∧ c.Fresh w ∧
      w'.db.evidence.get id = some row' ∧ Progress now w.db c id row row' := by
  cases h with
  | call c hnow hfresh =>
    obtain ⟨row', hrow', hprogress⟩ := (change_after c).progress rfl hfresh hrow
    exact .inr ⟨c, _, row', rfl, hfresh, hrow', hprogress⟩
  | elsewhere h =>
    rw [← h.evidence] at hrow
    exact .inl hrow

/-- A settled material has its state for ever. -/
theorem settled_of_run {l : List (ReviewWorld × Option ReviewCall × ReviewWorld)}
    (hw : (reviewSystem digests).Reach w) (hrun : (reviewSystem digests).Run w l w')
    {id : EvidenceId} {row : AchievementEvidence} (hrow : w.db.evidence.get id = some row)
    (hsettled : row.state.settled = true) :
    ∃ row', w'.db.evidence.get id = some row' ∧ row'.state = row.state := by
  refine hrun.keeps (P := fun w => ∃ row', w.db.evidence.get id = some row' ∧
    row'.state = row.state) (fun u _ u' _ hu hstep => ?_) hw ⟨row, hrow, rfl⟩
  obtain ⟨row₁, hrow₁, hstate⟩ := hu
  rcases ReviewStep.progress hstep hrow₁ with hsame | ⟨c, now, row₂, _, _, hrow₂, hprogress⟩
  · exact ⟨row₁, hsame, hstate⟩
  · refine ⟨row₂, hrow₂, (hprogress.settled ?_).trans hstate⟩
    rw [hstate]
    exact hsettled

structure Superseded (w : ReviewWorld) (token : CheckToken) : Prop where
  issued : w.attempts.get token ≠ none
  nowhere : ∀ id row, w.db.evidence.get id = some row → row.state.checkToken ≠ some token

theorem Superseded.step {token : CheckToken} {call : Option ReviewCall} (hw : Superseded w token)
    (h : ReviewStep digests w call w') : Superseded w' token := by
  cases h with
  | call c hnow hfresh =>
    have hfresh' : ∀ actor projectId achievementId id,
        c ≠ .startCheck actor projectId achievementId id token := by
      rintro actor projectId achievementId id rfl
      exact hw.issued hfresh
    constructor
    · cases c with
      | startCheck actor projectId achievementId id token' =>
        change (w.attempts.put token' id).get token ≠ none
        rw [Table.get_put]
        split
        · exact Option.some_ne_none _
        · exact hw.issued
      | _ => exact hw.issued
    · intro id row' hrow' htoken
      rcases (change_after c).material_before rfl hfresh hrow' with ⟨row, hrow, hprogress⟩ |
        ⟨_, _, _, _, rfl, _⟩
      · rcases hprogress.token htoken with hold | ⟨actor, projectId, achievementId, heq⟩
        · exact hw.nowhere id row hrow hold
        · exact hfresh' _ _ _ _ heq
      · cases htoken
  | elsewhere h =>
    refine ⟨hw.issued, ?_⟩
    rw [h.evidence]
    exact hw.nowhere

/-- What was reviewed is what is published: settled materials keep their state, a superseded
check never applies its result, a revision keeps its materials with their digests, the
materials rest while a case waits, and at most five count without a reference. -/
theorem reviewed_is_published (digests : Fingerprints) {w : ReviewWorld}
    (hw : (reviewSystem digests).Reach w) :
    (∀ w' l, (reviewSystem digests).Run w l w' → ∀ id row, w.db.evidence.get id = some row →
      row.state.settled = true →
      ∃ row', w'.db.evidence.get id = some row' ∧ row'.state = row.state) ∧
    (∀ token id, w.attempts.get token = some id →
      (∀ row, w.db.evidence.get id = some row → row.state.checkToken ≠ some token) →
      ∀ w' l, (reviewSystem digests).Run w l w' →
        ∀ actor projectId achievementId id' outcome now, ∃ e,
          w'.db.finishCheck now actor projectId achievementId id' token outcome = .error e) ∧
    (∀ rid r id sha256, w.db.revisions.get rid = some r → (id, sha256) ∈ r.evidence →
      ∃ row, w.db.evidence.get id = some row ∧ row.achievementId = r.achievementId ∧
        row.state = .ready sha256 ∧ row.removedAt = none) ∧
    (∀ w' l, (reviewSystem digests).Run w l w' → ∀ rid r, w.db.revisions.get rid = some r →
      w'.db.revisions.get rid = some r) ∧
    (∀ call w', ReviewStep digests w call w' → ∀ achievementId caseId case,
      w.db.cases.get caseId = some case → case.achievementId = achievementId →
      case.status = .submitted → ∀ id row, row.achievementId = achievementId →
      (w'.db.evidence.get id = some row ↔ w.db.evidence.get id = some row)) ∧
    ∀ achievementId now, w.now ≤ now → w.db.kept achievementId now ≤ 5 := by
  have hmaterials := materials_of_reach hw
  refine ⟨?_, ?_, ?_, ?_, ?_, ?_⟩
  · intro w' l hrun id row hrow hsettled
    exact settled_of_run hw hrun hrow hsettled
  · intro token id hissued hnot w' l hrun actor projectId achievementId id' outcome now
    have hsuperseded : Superseded w token := by
      refine ⟨fun hnone => ?_, fun id₁ row hrow htoken => ?_⟩
      · rw [hissued] at hnone
        cases hnone
      · have hid := hmaterials.issued id₁ row token hrow htoken
        rw [hissued] at hid
        obtain rfl := Option.some.inj hid
        exact hnot row hrow htoken
    have hlater : Superseded w' token :=
      hrun.keeps (P := fun w => Superseded w token)
        (fun _ _ _ _ h hstep => h.step hstep) hw hsuperseded
    cases hfinish : w'.db.finishCheck now actor projectId achievementId id' token outcome with
    | error e => exact ⟨e, rfl⟩
    | ok answer =>
      obtain ⟨row, hrow, _, _, htoken, _⟩ := ReviewDb.finishCheck_ok hfinish
      exact absurd htoken (hlater.nowhere id' row hrow)
  · intro rid r id sha256 hr hmem
    obtain ⟨row, hrow, hof, hstate, hremoved, _⟩ := hmaterials.frozen rid r id sha256 hr hmem
    exact ⟨row, hrow, hof, hstate, hremoved⟩
  · intro w' l hrun rid r hr
    exact revision_of_run hw hrun hr
  · intro call w' hstep achievementId caseId case hcase hof hstatus id row hrowof
    have hpending : w.db.pendingCase achievementId ≠ none := fun hnone =>
      ReviewDb.pendingCase_none hnone hcase hof hstatus
    cases hstep with
    | elsewhere h =>
      rw [h.evidence]
    | call c hnow hfresh =>
      constructor
      · intro hrow'
        rcases (change_after c).material_before rfl hfresh hrow' with ⟨row₀, hrow₀, hprogress⟩ |
          ⟨_, achievementId', _, _, rfl, hnone, _⟩
        · rw [hprogress.pending (by rw [← hprogress.achievement, hrowof]; exact hpending)]
          exact hrow₀
        · obtain rfl : achievementId' = achievementId := hrowof
          exact absurd hnone hpending
      · intro hrow
        obtain ⟨row', hrow', hprogress⟩ := (change_after c).progress rfl hfresh hrow
        rw [hprogress.pending (by rw [hrowof]; exact hpending)] at hrow'
        exact hrow'
  · intro achievementId now hnow
    exact (kept_antitone hnow).trans (hmaterials.few achievementId)

/-- In the scene the material of the first revision keeps its digest. -/
theorem scene_frozen :
    ∃ row, sceneReturned.evidence.get 1 = some row ∧ row.achievementId = 1 ∧
      row.state = .ready ['h'] ∧ row.removedAt = none :=
  (reviewed_is_published sceneDigests reach_returned).2.2.1 1 (sceneRevision 1 1 1) 1 ['h'] rfl
    (List.mem_singleton_self _)

end Results

end CampusQuest.Innovation
