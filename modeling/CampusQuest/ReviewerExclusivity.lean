import CampusQuest.ReviewWorkflow

/-!
Who holds a case. An operator who may still decide a waiting case keeps it, only the holder
decides it, and an operator who has declared a conflict on a project holds none of its waiting
cases and is refused every further look at them.
-/

namespace CampusQuest.Innovation

open Guards Tables Runs

section Anchored

/-- Every case belongs to a project whose owner is qualified. -/
def ReviewDb.Anchored (db : ReviewDb) : Prop :=
  ∀ id case, db.cases.get id = some case → ∃ projectId p,
    db.scopeOf case.achievementId = some (projectId, p) ∧
    (db.qualifications.get p.ownerUserId).any (fun q => q.approved) = true

variable {digests : Fingerprints} {now : Instant} {db db' : ReviewDb} {w w' : ReviewWorld}

theorem Elsewhere.scopeOf (h : Elsewhere db db') {achievement : AchievementId}
    {projectId : ProjectId} {p : ProjectDraft}
    (hscope : db.scopeOf achievement = some (projectId, p)) :
    ∃ p', db'.scopeOf achievement = some (projectId, p') ∧ p'.ownerUserId = p.ownerUserId := by
  obtain ⟨a, ha, hof, hp⟩ := ReviewDb.scopeOf_eq.mp hscope
  obtain ⟨a', ha', hof'⟩ := h.achievements achievement a ha
  obtain ⟨p', hp', howner⟩ := h.projects projectId p hp
  exact ⟨p', ReviewDb.scopeOf_eq.mpr ⟨a', ha', hof'.trans hof, hp'⟩, howner⟩

/-- A command keeps the drafts, the accounts and the grants. -/
theorem Change.drafts {call : ReviewCall} (h : Change digests now db call db') :
    db'.projects = db.projects ∧ db'.achievements = db.achievements ∧ db'.users = db.users ∧
      db'.grants = db.grants := by
  cases h <;> exact ⟨rfl, rfl, rfl, rfl⟩

theorem Change.scopeOf {call : ReviewCall} (h : Change digests now db call db')
    (achievement : AchievementId) : db'.scopeOf achievement = db.scopeOf achievement := by
  obtain ⟨hprojects, hachievements, _⟩ := h.drafts
  unfold ReviewDb.scopeOf
  rw [hprojects, hachievements]

theorem Change.qualified_stays {call : ReviewCall} (h : Change digests now db call db')
    {user : UserId} (hq : (db.qualifications.get user).any (fun q => q.approved) = true) :
    (db'.qualifications.get user).any (fun q => q.approved) = true := by
  cases h with
  | @qualified _ user' row happroved =>
    change ((db.qualifications.put user' row).get user).any _ = true
    rw [Table.get_put]
    split
    next heq =>
      subst heq
      exact happroved hq
    next => exact hq
  | _ => exact hq

/-- A case is one that was there, or the one that a submission files. -/
theorem Change.case_before {call : ReviewCall} (h : Change digests now db call db') {id : CaseId}
    {case : AchievementReviewCase} (hcase : db'.cases.get id = some case) :
    (∃ case₀, db.cases.get id = some case₀ ∧ case₀.achievementId = case.achievementId) ∨
      (case.assignedUserId = none ∧ ∃ actor projectId payload operation revision workflow,
        db.Freezes digests now actor projectId case.achievementId payload operation revision
          workflow) := by
  have hput : ∀ (id₀ : CaseId) (case₀ case₁ : AchievementReviewCase),
      db.cases.get id₀ = some case₀ → case₀.achievementId = case₁.achievementId →
      (db.cases.put id₀ case₁).get id = some case →
      ∃ case₂, db.cases.get id = some case₂ ∧ case₂.achievementId = case.achievementId := by
    intro id₀ case₀ case₁ hcase₀ hof hget
    rcases Table.get_put_eq_some hget with ⟨rfl, rfl⟩ | ⟨_, hold⟩
    · exact ⟨case₀, hcase₀, hof⟩
    · exact ⟨case, hold, rfl⟩
  cases h with
  | submitted h =>
    rcases Table.get_put_eq_some hcase with ⟨_, rfl⟩ | ⟨_, hold⟩
    · exact .inr ⟨rfl, _, _, _, _, _, _, h⟩
    · exact .inl ⟨case, hold, rfl⟩
  | @withdrawn _ _ _ _ case₀ _ hcase₀ =>
    exact .inl (hput _ case₀ { case₀ with status := .withdrawn, version := case₀.version + 1 }
      hcase₀ rfl hcase)
  | @claimed actor _ _ case₀ _ _ _ hscope =>
    exact .inl (hput _ case₀
      { case₀ with assignedUserId := some actor.userId, version := case₀.version + 1 }
      hscope.get rfl hcase)
  | recused =>
    change (db.cases.updateWhere _ _).get id = some case at hcase
    rw [Table.get_updateWhere] at hcase
    obtain ⟨case₀, hcase₀, heq⟩ := Option.map_eq_some_iff.mp hcase
    refine .inl ⟨case₀, hcase₀, ?_⟩
    rw [← heq]
    split <;> rfl
  | decided hscope =>
    rcases Table.get_put_eq_some hcase with ⟨rfl, rfl⟩ | ⟨_, hold⟩
    · exact .inl ⟨_, hscope.get, rfl⟩
    · exact .inl ⟨case, hold, rfl⟩
  | _ => exact .inl ⟨case, hcase, rfl⟩

theorem Change.anchored {call : ReviewCall} (h : Change digests now db call db')
    (hdb : db.Anchored) : db'.Anchored := by
  intro id case hcase
  rw [h.scopeOf]
  rcases h.case_before hcase with ⟨case₀, hcase₀, hof⟩ | ⟨_, actor, projectId, _, _, _, _, hfreezes⟩
  · obtain ⟨projectId, p, hscope, hq⟩ := hdb id case₀ hcase₀
    rw [hof] at hscope
    exact ⟨projectId, p, hscope, h.qualified_stays hq⟩
  · obtain ⟨p, hp, howner⟩ := hfreezes.owner
    obtain ⟨a, ha, hof⟩ := hfreezes.child
    refine ⟨projectId, p, ReviewDb.scopeOf_eq.mpr ⟨a, ha, hof, hp⟩, ?_⟩
    rw [howner]
    exact h.qualified_stays hfreezes.qualified

theorem anchored_of_reach (hw : (reviewSystem digests).Reach w) : w.db.Anchored := by
  induction hw with
  | init hinit =>
    intro id case hcase
    rw [ReviewWorld.Initial.cases hinit] at hcase
    cases hcase
  | step _ hstep ih =>
    cases hstep with
    | call c hnow hfresh => exact (change_after c).anchored ih
    | elsewhere h =>
      intro id case hcase
      rw [h.cases] at hcase
      obtain ⟨projectId, p, hscope, hq⟩ := ih id case hcase
      obtain ⟨p', hscope', howner⟩ := h.scopeOf hscope
      refine ⟨projectId, p', hscope', ?_⟩
      rw [h.qualifications, howner]
      exact hq

end Anchored

section Holder

variable {digests : Fingerprints} {now : Instant} {db db' : ReviewDb} {w w' : ReviewWorld}

def ReviewDb.CaseOf (db : ReviewDb) (projectId : ProjectId) (case : AchievementReviewCase) : Prop :=
  ∃ p, db.scopeOf case.achievementId = some (projectId, p)

theorem ReviewDb.Scoped.caseOf {actor : Actor} {caseId : CaseId} {allowConflict : Bool}
    {case : AchievementReviewCase} {workflow : AchievementWorkflow} {projectId : ProjectId}
    {owner : UserId} (h : db.Scoped actor caseId allowConflict case workflow projectId owner) :
    db.CaseOf projectId case := by
  obtain ⟨_, p, hscope, _⟩ := ReviewDb.caseScope_eq.mp h.found
  exact ⟨p, hscope⟩

theorem ReviewDb.CaseOf.unique {projectId projectId' : ProjectId} {case : AchievementReviewCase}
    (h : db.CaseOf projectId case) (h' : db.CaseOf projectId' case) : projectId = projectId' := by
  obtain ⟨p, hp⟩ := h
  obtain ⟨p', hp'⟩ := h'
  rw [hp] at hp'
  exact congrArg Prod.fst (Option.some.inj hp')

/-- An operator who is held to be eligible loses a waiting case to nobody. -/
theorem Change.keeps_holder {call : ReviewCall} (h : Change digests now db call db')
    {w : ReviewWorld} (hdb : w.db = db) (hfresh : call.Fresh w) {id : CaseId}
    {case : AchievementReviewCase} {projectId : ProjectId} {user : UserId}
    (hcase : db.cases.get id = some case) (hof : db.CaseOf projectId case)
    (hassigned : case.assignedUserId = some user)
    (heligible : db.validAssignee projectId user = true) :
    ∃ case', db'.cases.get id = some case' ∧ ∀ v, case'.assignedUserId = some v → v = user := by
  have hsame : ∀ v, case.assignedUserId = some v → v = user := by
    intro v hv
    rw [hassigned] at hv
    exact (Option.some.inj hv).symm
  have hput : ∀ (id₀ : CaseId) (case₀ case₁ : AchievementReviewCase),
      db.cases.get id₀ = some case₀ →
      (case₀ = case → ∀ v, case₁.assignedUserId = some v → v = user) →
      ∃ case', (db.cases.put id₀ case₁).get id = some case' ∧
        ∀ v, case'.assignedUserId = some v → v = user := by
    intro id₀ case₀ case₁ hcase₀ hnew
    by_cases heq : id = id₀
    · subst heq
      rw [hcase] at hcase₀
      exact ⟨case₁, Table.get_put_self _ _ _, hnew (Option.some.inj hcase₀).symm⟩
    · exact ⟨case, (Table.get_put_of_ne _ _ heq).trans hcase, hsame⟩
  cases h with
  | @submitted _ _ _ _ _ _ caseId _ _ _ =>
    refine ⟨case, ?_, hsame⟩
    change (db.cases.put caseId _).get id = some case
    rw [Table.get_put_of_ne _ _ ?_]
    · exact hcase
    · rintro rfl
      subst hdb
      rw [hfresh.2] at hcase
      cases hcase
  | @withdrawn _ _ _ _ case₀ _ hcase₀ =>
    exact hput _ case₀ _ hcase₀ fun heq => by
      subst heq
      exact hsame
  | @claimed _ _ _ case₀ _ _ _ hscope _ hfree =>
    refine hput _ case₀ _ hscope.get fun heq => ?_
    -- The holder is still eligible, so the case is not free.
    subst heq
    obtain rfl := hof.unique hscope.caseOf
    rw [hassigned, Option.any_some, heligible] at hfree
    cases hfree
  | @recused actor _ _ _ _ projectId' _ _ =>
    have hget : (db.putConflict now projectId' actor.userId).cases.get id =
        some (if db.held projectId' actor.userId case then
          { case with assignedUserId := none, version := case.version + 1 } else case) := by
      change (db.cases.updateWhere _ _).get id = _
      rw [Table.get_updateWhere, hcase]
      rfl
    refine ⟨_, hget, fun v hv => ?_⟩
    split at hv
    · cases hv
    · exact hsame v hv
  | @decided _ _ _ case₀ _ _ _ _ hscope =>
    exact hput _ case₀ _ hscope.get fun heq => by
      subst heq
      exact hsame
  | _ => exact ⟨case, hcase, hsame⟩

/-- A decision on record is the work of the operator who held the case. -/
theorem Change.decides {call : ReviewCall} (h : Change digests now db call db')
    {id : CaseId} {case case' : AchievementReviewCase} (hcase : db.cases.get id = some case)
    (hcase' : db'.cases.get id = some case') (hopen : case.status = .submitted)
    (hdecided : case'.status = .approved ∨ case'.status = .returned) :
    ∃ actor payload projectId p, call = .decision actor id payload ∧
      case.assignedUserId = some actor.userId ∧
      db.scopeOf case.achievementId = some (projectId, p) ∧
      db.validAssignee projectId actor.userId = true ∧ p.ownerUserId ≠ actor.userId := by
  have hnot : ∀ case₁ : AchievementReviewCase, case₁.status = .submitted ∨ case₁.status = .withdrawn →
      ¬ (case₁.status = .approved ∨ case₁.status = .returned) := by
    rintro case₁ (heq | heq) (heq' | heq') <;> rw [heq] at heq' <;> cases heq'
  have hput : ∀ (id₀ : CaseId) (case₁ : AchievementReviewCase),
      (case₁.status = .submitted ∨ case₁.status = .withdrawn) →
      (db.cases.put id₀ case₁).get id ≠ some case' := by
    intro id₀ case₁ hstatus hget
    rcases Table.get_put_eq_some hget with ⟨_, rfl⟩ | ⟨_, hold⟩
    · exact hnot _ hstatus hdecided
    · rw [hcase] at hold
      obtain rfl := Option.some.inj hold
      exact hnot _ (.inl hopen) hdecided
  cases h with
  | submitted => exact absurd hcase' (hput _ _ (.inl rfl))
  | withdrawn => exact absurd hcase' (hput _ _ (.inr rfl))
  | claimed _ hstatus => exact absurd hcase' (hput _ _ (.inl hstatus))
  | recused =>
    change (db.cases.updateWhere _ _).get id = some case' at hcase'
    rw [Table.get_updateWhere, hcase, Option.map_some] at hcase'
    refine absurd hdecided (hnot _ (.inl ?_))
    rw [← Option.some.inj hcase']
    split
    · exact hopen
    · exact hopen
  | @decided actor caseId payload case₀ _ projectId owner _ hscope hassigned =>
    rcases Table.get_put_eq_some hcase' with ⟨rfl, _⟩ | ⟨_, hold⟩
    · have hget := hscope.get
      rw [hcase] at hget
      obtain rfl := Option.some.inj hget
      obtain ⟨_, p, hp, howner⟩ := ReviewDb.caseScope_eq.mp hscope.found
      refine ⟨actor, payload, projectId, p, rfl, hassigned, hp, ?_, ?_⟩
      · have hconflict : db.conflicts.get (projectId, actor.userId) = none :=
          hscope.no_conflict.resolve_right fun heq => (by cases heq)
        unfold ReviewDb.validAssignee
        rw [hscope.operates.active, hscope.operates.granted, hconflict]
        rfl
      · rw [howner]
        exact hscope.not_owner
    · rw [hcase] at hold
      obtain rfl := Option.some.inj hold
      exact absurd hdecided (hnot _ (.inl hopen))
  | _ =>
    obtain rfl : case = case' := Option.some.inj (hcase.symm.trans hcase')
    exact absurd hdecided (hnot _ (.inl hopen))

end Holder

section Recusal

variable {digests : Fingerprints} {now : Instant} {db db' : ReviewDb} {w w' : ReviewWorld}

/-- An operator has declared a conflict on a project and holds none of its waiting cases. -/
structure ReviewDb.Recused (db : ReviewDb) (projectId : ProjectId) (user : UserId) : Prop where
  declared : db.conflicts.get (projectId, user) ≠ none
  holds_none : ∀ id case, db.cases.get id = some case → case.status = .submitted →
    db.CaseOf projectId case → case.assignedUserId ≠ some user

theorem ReviewDb.recused_putConflict (projectId : ProjectId) (user : UserId) :
    (db.putConflict now projectId user).Recused projectId user := by
  constructor
  · change (if db.conflicts.get (projectId, user) = none then db.conflicts.put (projectId, user) now
      else db.conflicts).get (projectId, user) ≠ none
    split
    · rw [Table.get_put_self]
      exact Option.some_ne_none _
    · assumption
  · intro id case hcase hstatus hof hassigned
    obtain ⟨p, hp⟩ := hof
    change (db.cases.updateWhere _ _).get id = some case at hcase
    rw [Table.get_updateWhere] at hcase
    obtain ⟨case₀, _, heq⟩ := Option.map_eq_some_iff.mp hcase
    split at heq
    next =>
      subst heq
      cases hassigned
    next hheld =>
      subst heq
      refine hheld ⟨hstatus, hassigned, ?_⟩
      change (db.putConflict now projectId user).scopeOf case₀.achievementId = _ at hp
      exact (congrArg (Option.map Prod.fst) hp)

theorem Change.caseOf {call : ReviewCall} (h : Change digests now db call db')
    {projectId : ProjectId} {case : AchievementReviewCase} :
    db'.CaseOf projectId case ↔ db.CaseOf projectId case := by
  unfold ReviewDb.CaseOf
  rw [h.scopeOf]

/-- No command gives a case of the project to an operator who has declared a conflict. -/
theorem Change.stays_recused {call : ReviewCall} (h : Change digests now db call db')
    {projectId : ProjectId} {user : UserId} (hdb : db.Recused projectId user) :
    db'.Recused projectId user := by
  have hput : ∀ (id₀ : CaseId) (case₁ : AchievementReviewCase),
      (case₁.status = .submitted → db.CaseOf projectId case₁ → case₁.assignedUserId ≠ some user) →
      ∀ id case, (db.cases.put id₀ case₁).get id = some case → case.status = .submitted →
        db.CaseOf projectId case → case.assignedUserId ≠ some user := by
    intro id₀ case₁ hnew id case hget hstatus hof
    rcases Table.get_put_eq_some hget with ⟨_, rfl⟩ | ⟨_, hold⟩
    · exact hnew hstatus hof
    · exact hdb.holds_none id case hold hstatus hof
  constructor
  · cases h with
    | @recused actor _ _ _ _ projectId' =>
      change (if db.conflicts.get (projectId', actor.userId) = none then
        db.conflicts.put (projectId', actor.userId) now else db.conflicts).get _ ≠ none
      split
      · rw [Table.get_put]
        split
        · exact Option.some_ne_none _
        · exact hdb.declared
      · exact hdb.declared
    | _ => exact hdb.declared
  · intro id case hcase hstatus hof
    rw [h.caseOf] at hof
    cases h with
    | submitted =>
      exact hput _ _ (fun _ _ => (Option.some_ne_none user).symm) id case hcase hstatus hof
    | withdrawn => exact hput _ _ (fun heq => (by cases heq)) id case hcase hstatus hof
    | @claimed actor _ _ case₀ _ projectId' _ hscope =>
      refine hput _ { case₀ with assignedUserId := some actor.userId, version := case₀.version + 1 }
        (fun _ hof₀ hassigned => ?_) id case hcase hstatus hof
      -- The claim has found no conflict, so the operator is another one.
      obtain rfl : projectId = projectId' := hof₀.unique hscope.caseOf
      obtain rfl := Option.some.inj hassigned
      exact hdb.declared (hscope.no_conflict.resolve_right fun heq => (by cases heq))
    | recused =>
      change (db.cases.updateWhere _ _).get id = some case at hcase
      rw [Table.get_updateWhere] at hcase
      obtain ⟨case₀, hcase₀, heq⟩ := Option.map_eq_some_iff.mp hcase
      split at heq
      next =>
        subst heq
        exact (Option.some_ne_none user).symm
      next =>
        subst heq
        exact hdb.holds_none id case₀ hcase₀ hstatus hof
    | @decided _ _ payload =>
      exact hput _ _ (fun heq => absurd heq payload.decision.status_ne_submitted) id case hcase
        hstatus hof
    | _ => exact hdb.holds_none id case hcase hstatus hof

theorem ReviewStep.recused {call : Option ReviewCall} (hw : (reviewSystem digests).Reach w)
    (h : ReviewStep digests w call w') {projectId : ProjectId} {user : UserId}
    (hdb : w.db.Recused projectId user) : w'.db.Recused projectId user := by
  cases h with
  | call c hnow hfresh => exact (change_after c).stays_recused hdb
  | elsewhere h =>
    constructor
    · rw [h.conflicts]
      exact hdb.declared
    · intro id case hcase hstatus hof
      rw [h.cases] at hcase
      refine hdb.holds_none id case hcase hstatus ?_
      -- The achievement had a project before, and it keeps it.
      obtain ⟨projectId₀, p₀, hscope, _⟩ := anchored_of_reach hw id case hcase
      obtain ⟨p', hscope', _⟩ := h.scopeOf hscope
      obtain rfl : projectId = projectId₀ := hof.unique ⟨p', hscope'⟩
      exact ⟨p₀, hscope⟩

/-- The commands by which an operator takes, reads or decides a case. -/
def ReviewCall.onCase : ReviewCall → Option (Actor × CaseId)
  | claim actor caseId _ | openDetail actor caseId | detail actor caseId
  | decision actor caseId _ | openContent actor caseId _ | readContent actor caseId _ =>
    some (actor, caseId)
  | _ => none

theorem isError_of_bind {α β : Type} {x : Answer α} {f : α → Answer β} (h : ∀ a, x ≠ .ok a) :
    ∃ e, (x >>= f) = .error e := by
  cases x with
  | ok a => exact absurd rfl (h a)
  | error e => exact ⟨e, rfl⟩

theorem isError_of_map {α β : Type} {x : Answer α} {f : α → β} (h : ∃ e, x = .error e) :
    ∃ e, x.map f = .error e := by
  obtain ⟨e, rfl⟩ := h
  exact ⟨e, rfl⟩

/-- Each transaction of these commands starts with the locked reads of the case. -/
theorem refused_of_recused {projectId : ProjectId} {user : UserId}
    (hdb : db.Recused projectId user) {call : ReviewCall} {actor : Actor} {caseId : CaseId}
    (hcall : call.onCase = some (actor, caseId)) (hactor : actor.userId = user)
    {case : AchievementReviewCase} (hcase : db.cases.get caseId = some case)
    (hof : db.CaseOf projectId case) : ∃ e, call.perform digests now db = .error e := by
  subst hactor
  have hscope : ∀ found, db.scope actor caseId false ≠ .ok found := by
    rintro ⟨case', workflow, projectId', owner⟩ hok
    have hscoped := ReviewDb.scope_ok.mp hok
    have hget := hscoped.get
    rw [hcase] at hget
    obtain rfl := Option.some.inj hget
    obtain rfl := hof.unique hscoped.caseOf
    exact hdb.declared (hscoped.no_conflict.resolve_right fun heq => (by cases heq))
  cases call with
  | claim actor' caseId' version =>
    cases hcall
    exact isError_of_bind hscope
  | openDetail actor' caseId' =>
    cases hcall
    exact isError_of_map (isError_of_bind hscope)
  | detail actor' caseId' =>
    cases hcall
    exact isError_of_map (isError_of_bind hscope)
  | decision actor' caseId' payload =>
    cases hcall
    exact isError_of_bind hscope
  | openContent actor' caseId' evidenceId =>
    cases hcall
    exact isError_of_map (isError_of_bind hscope)
  | readContent actor' caseId' version =>
    cases hcall
    exact isError_of_map (isError_of_bind hscope)
  | _ => cases hcall

/-- A waiting case stays with an operator who may decide it, a decision is recorded by its
holder alone, and a declared conflict holds for ever and for every case of the project. -/
theorem reviewer_exclusivity (digests : Fingerprints) {w : ReviewWorld}
    (hw : (reviewSystem digests).Reach w) :
    (∀ call w', ReviewStep digests w call w' → ∀ id case projectId user,
      w.db.cases.get id = some case → case.status = .submitted → w.db.CaseOf projectId case →
      case.assignedUserId = some user → w.db.validAssignee projectId user = true →
      ∃ case', w'.db.cases.get id = some case' ∧ ∀ v, case'.assignedUserId = some v → v = user) ∧
    (∀ call w', ReviewStep digests w call w' → ∀ id case case',
      w.db.cases.get id = some case → w'.db.cases.get id = some case' →
      case.status = .submitted → (case'.status = .approved ∨ case'.status = .returned) →
      ∃ actor payload projectId p, call = some (.decision actor id payload) ∧
        case.assignedUserId = some actor.userId ∧
        w.db.scopeOf case.achievementId = some (projectId, p) ∧
        w.db.validAssignee projectId actor.userId = true ∧ p.ownerUserId ≠ actor.userId) ∧
    ∀ actor caseId version now db, w.now ≤ now →
      w.db.declareConflict now actor caseId version = .ok db →
      ∃ case projectId, w.db.cases.get caseId = some case ∧ w.db.CaseOf projectId case ∧
        ∀ w' l, (reviewSystem digests).Run ⟨db, now, w.attempts⟩ l w' →
          (∀ id case', w'.db.cases.get id = some case' → case'.status = .submitted →
            w'.db.CaseOf projectId case' → case'.assignedUserId ≠ some actor.userId) ∧
          ∀ call actor' id case', ReviewCall.onCase call = some (actor', id) →
            actor'.userId = actor.userId → w'.db.cases.get id = some case' →
            w'.db.CaseOf projectId case' →
            ∀ now', ∃ e, call.perform digests now' w'.db = .error e := by
  refine ⟨?_, ?_, ?_⟩
  · intro call w' hstep id case projectId user hcase _ hof hassigned heligible
    cases hstep with
    | call c hnow hfresh =>
      exact (change_after c).keeps_holder rfl hfresh hcase hof hassigned heligible
    | elsewhere h =>
      refine ⟨case, ?_, fun v hv => ?_⟩
      · rw [← h.cases] at hcase
        exact hcase
      · rw [hassigned] at hv
        exact (Option.some.inj hv).symm
  · intro call w' hstep id case case' hcase hcase' hopen hdecided
    cases hstep with
    | call c hnow hfresh =>
      obtain ⟨actor, payload, projectId, p, rfl, h⟩ :=
        (change_after c).decides hcase hcase' hopen hdecided
      exact ⟨actor, payload, projectId, p, rfl, h⟩
    | elsewhere h =>
      rw [h.cases, hcase] at hcase'
      obtain rfl := Option.some.inj hcase'
      rw [hopen] at hdecided
      rcases hdecided with heq | heq <;> cases heq
  · intro actor caseId version now db hnow hok
    have hreach := reach_call hw (.declareConflict actor caseId version) hnow trivial hok
    obtain ⟨case, workflow, projectId, owner, hscope, _, rfl⟩ := ReviewDb.declareConflict_ok hok
    refine ⟨case, projectId, hscope.get, hscope.caseOf, ?_⟩
    intro w' l hrun
    have hrecused : w'.db.Recused projectId actor.userId :=
      hrun.keeps (P := fun w => w.db.Recused projectId actor.userId)
        (fun _ _ _ hreach hrecused hstep => ReviewStep.recused hreach hstep hrecused) hreach
        (ReviewDb.recused_putConflict projectId actor.userId)
    refine ⟨hrecused.holds_none, ?_⟩
    intro call actor' id case' hcall hactor hcase' hof now'
    exact refused_of_recused hrecused hcall hactor hcase' hof

/-- In the scene the decision leaves the case with the operator who held it. -/
theorem scene_keeps_holder :
    ∃ case', sceneReturned.cases.get 1 = some case' ∧ ∀ v, case'.assignedUserId = some v → v = 2 := by
  have hstep : ReviewStep sceneDigests (sceneWorld sceneClaimed)
      (some (.decision sceneReviewer 1 sceneReturn)) (sceneWorld sceneReturned) :=
    .call (.decision sceneReviewer 1 sceneReturn) (le_refl 0) trivial
  exact (reviewer_exclusivity sceneDigests reach_claimed).1 _ _ hstep 1 _ 1 2 rfl rfl ⟨_, rfl⟩ rfl rfl

end Recusal

section Queue

variable {digests : Fingerprints} {db : ReviewDb} {w : ReviewWorld} {actor : Actor}

/-- Every element of a list is on one of its pages. -/
theorem mem_page_iff {α : Type} {l : List α} {a : α} {limit : ℕ} (hlimit : 0 < limit) :
    (∃ offset, a ∈ (l.drop offset).take limit) ↔ a ∈ l := by
  constructor
  · rintro ⟨offset, h⟩
    exact List.mem_of_mem_drop (List.mem_of_mem_take h)
  · intro h
    obtain ⟨offset, hlt, rfl⟩ := List.mem_iff_getElem.mp h
    refine ⟨offset, ?_⟩
    rw [List.drop_eq_getElem_cons hlt]
    cases limit with
    | zero => cases hlimit
    | succ n => exact List.mem_cons_self

theorem ReviewDb.listed_iff {case : AchievementReviewCase} :
    db.Listed actor case ↔ case.status = .submitted ∧
      (db.revisions.get case.revisionId).isSome = true ∧
      ∃ projectId p, db.scopeOf case.achievementId = some (projectId, p) ∧
        p.ownerUserId ≠ actor.userId ∧ db.activeStudent p.ownerUserId = true ∧
        (case.assignedUserId = none ∨ case.assignedUserId = some actor.userId ∨
          (case.assignedUserId.any fun u => db.validAssignee projectId u) = false) ∧
        db.conflicts.get (projectId, actor.userId) = none := by
  unfold ReviewDb.Listed
  refine and_congr_right fun _ => and_congr_right fun _ => ?_
  rw [Option.any_eq_true]
  constructor
  · rintro ⟨⟨projectId, p⟩, hscope, h⟩
    simp only [Bool.and_eq_true, Bool.or_eq_true, decide_eq_true_eq, Option.isNone_iff_eq_none,
      beq_iff_eq, Bool.not_eq_true'] at h
    obtain ⟨⟨hne, hactive⟩, hfree, hconflict⟩ := h
    refine ⟨projectId, p, hscope, hne, hactive, ?_, hconflict⟩
    rcases hfree with (hnone | hmine) | hfree
    · exact .inl hnone
    · exact .inr (.inl hmine)
    · exact .inr (.inr hfree)
  · rintro ⟨projectId, p, hscope, hne, hactive, hfree, hconflict⟩
    refine ⟨(projectId, p), hscope, ?_⟩
    simp only [Bool.and_eq_true, Bool.or_eq_true, decide_eq_true_eq, Option.isNone_iff_eq_none,
      beq_iff_eq, Bool.not_eq_true']
    refine ⟨⟨hne, hactive⟩, ?_, hconflict⟩
    rcases hfree with hnone | hmine | hfree
    · exact .inl (.inl hnone)
    · exact .inl (.inr hmine)
    · exact .inr hfree

/-- What the queue does not check, the qualification of the owner, the workflow and the revision
of the case, is there for every case. -/
theorem listed_iff_claim (hw : (reviewSystem digests).Reach w) (hactor : w.db.Operates actor)
    {caseId : CaseId} {case : AchievementReviewCase} (hcase : w.db.cases.get caseId = some case) :
    w.db.Listed actor case ↔ ∃ db', w.db.claim actor caseId case.version = .ok db' := by
  have hL := consistent_of_reach hw
  rw [ReviewDb.listed_iff]
  constructor
  · rintro ⟨hstatus, _, projectId, p, hscope, hne, hactive, hfree, hconflict⟩
    obtain ⟨projectId', p', hscope', hqualified⟩ := anchored_of_reach hw caseId case hcase
    rw [hscope] at hscope'
    obtain ⟨rfl, rfl⟩ := Prod.mk.inj (Option.some.inj hscope')
    have hscoped : w.db.Scoped actor caseId false case _ projectId p.ownerUserId :=
      { found := ReviewDb.caseScope_eq.mpr ⟨hcase, p, hscope, rfl⟩
        operates := hactor
        not_owner := hne
        owner_active := hactive
        owner_qualified := hqualified
        reviewed := workflow_of_case hL hcase
        no_conflict := .inl hconflict }
    by_cases hmine : case.assignedUserId = some actor.userId
    · refine ⟨w.db, ReviewDb.claim_ok.mpr ⟨case, _, _, _, hscoped, hstatus, ?_⟩⟩
      rw [if_pos ⟨hmine, .inl rfl⟩]
    · refine ⟨w.db.putClaim caseId case actor.userId,
        ReviewDb.claim_ok.mpr ⟨case, _, _, _, hscoped, hstatus, ?_⟩⟩
      rw [if_neg fun h => hmine h.1]
      refine ⟨rfl, ?_, rfl⟩
      rcases hfree with hnone | hsome | hfree
      · rw [hnone]
        rfl
      · exact absurd hsome hmine
      · exact hfree
  · rintro ⟨db', hclaim⟩
    obtain ⟨case', workflow, projectId, owner, hscoped, hstatus, h⟩ := ReviewDb.claim_ok.mp hclaim
    obtain ⟨hget, p, hscope, howner⟩ := ReviewDb.caseScope_eq.mp hscoped.found
    obtain rfl : case = case' := Option.some.inj (hcase.symm.trans hget)
    obtain ⟨r, hr, _⟩ := hL.revision_of_filing caseId _ (ReviewDb.filing_of_get hcase)
    subst howner
    refine ⟨hstatus, Option.isSome_iff_exists.mpr ⟨r, hr⟩, projectId, p, hscope, hscoped.not_owner,
      hscoped.owner_active, ?_, hscoped.no_conflict.resolve_right fun heq => (by cases heq)⟩
    split at h
    next hmine => exact .inr (.inl hmine.1)
    next => exact .inr (.inr h.2.1)

theorem ReviewDb.mem_queue_iff {caseId : CaseId} {version : ℕ} :
    (∃ item ∈ db.queue actor, item.id = caseId ∧ item.version = version) ↔
      ∃ case, db.cases.get caseId = some case ∧ case.version = version ∧ db.Listed actor case := by
  unfold ReviewDb.queue
  constructor
  · rintro ⟨item, hitem, rfl, rfl⟩
    obtain ⟨⟨id, case⟩, hscan, hrow⟩ := List.mem_filterMap.mp hitem
    obtain ⟨hget, hlisted⟩ := Table.mem_scan.mp hscan
    obtain ⟨revision, _, rfl⟩ := Option.map_eq_some_iff.mp hrow
    exact ⟨case, hget, rfl, hlisted⟩
  · rintro ⟨case, hget, rfl, hlisted⟩
    obtain ⟨revision, hrevision⟩ := Option.isSome_iff_exists.mp hlisted.2.1
    have hrow : db.queueItem actor (caseId, case) = some _ :=
      Option.map_eq_some_iff.mpr ⟨revision, hrevision, rfl⟩
    exact ⟨_, List.mem_filterMap.mpr ⟨(caseId, case), Table.mem_scan.mpr ⟨hget, hlisted⟩, hrow⟩,
      rfl, rfl⟩

/-- The pages of the queue show exactly the cases that a claim at the version shown takes. -/
theorem queue_is_claimable (digests : Fingerprints) {w : ReviewWorld}
    (hw : (reviewSystem digests).Reach w) {actor : Actor}
    (hactor : w.db.authority actor none = .ok ()) {limit : ℕ} (hlimit : 0 < limit)
    (caseId : CaseId) (version : ℕ) :
    (∃ offset items total, w.db.listQueue actor limit offset = .ok (items, total) ∧
      ∃ item ∈ items, item.id = caseId ∧ item.version = version) ↔
    ∃ case, w.db.cases.get caseId = some case ∧ case.version = version ∧
      ∃ db', w.db.claim actor caseId version = .ok db' := by
  have hoperates := ReviewDb.authority_none_iff.mp hactor
  have hpages : (∃ offset items total, w.db.listQueue actor limit offset = .ok (items, total) ∧
      ∃ item ∈ items, item.id = caseId ∧ item.version = version) ↔
      ∃ item ∈ w.db.queue actor, item.id = caseId ∧ item.version = version := by
    unfold ReviewDb.listQueue
    rw [hactor]
    constructor
    · rintro ⟨offset, items, total, h, item, hitem, hof⟩
      cases h
      exact ⟨item, (mem_page_iff hlimit).mp ⟨offset, hitem⟩, hof⟩
    · rintro ⟨item, hitem, hof⟩
      obtain ⟨offset, hpage⟩ := (mem_page_iff hlimit).mpr hitem
      exact ⟨offset, _, _, rfl, item, hpage, hof⟩
  rw [hpages, ReviewDb.mem_queue_iff]
  constructor
  · rintro ⟨case, hcase, rfl, hlisted⟩
    exact ⟨case, hcase, rfl, (listed_iff_claim hw hoperates hcase).mp hlisted⟩
  · rintro ⟨case, hcase, rfl, hclaim⟩
    exact ⟨case, hcase, rfl, (listed_iff_claim hw hoperates hcase).mpr hclaim⟩

/-- The case that waits in the scene is on a page, since its claim succeeds. -/
theorem scene_queue :
    ∃ offset items total, sceneSubmitted.listQueue sceneReviewer 20 offset = .ok (items, total) ∧
      ∃ item ∈ items, item.id = 1 ∧ item.version = 1 :=
  (queue_is_claimable sceneDigests reach_submitted rfl (by decide) 1 1).mpr
    ⟨sceneCase, rfl, rfl, sceneClaimed, scene_claim⟩

end Queue

end CampusQuest.Innovation
