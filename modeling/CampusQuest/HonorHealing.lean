import CampusQuest.HonorGrants

/-!
Histories of completions and postings with some of their honor triggers lost. What a user
holds afterwards are the honors matched at the triggers that ran, and the facts of a
trigger do not depend on what was granted before. The completed count never falls, so its
honors heal; a streak or a sum of points may have fallen before the next trigger runs.
-/

namespace CampusQuest.Rankings

open Transactions Runs Locking Lifecycle
open Points (PointsLedger)

def HonorDefinition.key (d : HonorDefinition) (period : Option String) : HonorKey :=
  ⟨d.honorType, d.name, if d.periodic then period else none⟩

def HonorDb.facts (db : HonorDb) (user : UserId) : HonorFacts :=
  ⟨(db.completionCounts user).1, onTimeRun (db.tiersNewestFirst user),
    userScore db.ledger user none none⟩

def HonorDb.factsFor (db : HonorDb) (user : UserId) (trigger : HonorTrigger) : HonorFacts :=
  if trigger.lifetime = false then {} else db.facts user

def HonorDb.Holds (db : HonorDb) (user : UserId) (key : HonorKey) : Prop :=
  ⟨user, key⟩ ∈ db.userHonors

instance (db : HonorDb) (user : UserId) (key : HonorKey) : Decidable (db.Holds user key) :=
  inferInstanceAs (Decidable (_ ∈ _))

/-- From one store to another, some grants were added and the facts left alone. -/
structure Granted (db db' : HonorDb) (new : UserHonor → Prop) : Prop where
  users : db'.users = db.users
  claims : db'.claims = db.claims
  ledger : db'.ledger = db.ledger
  definitions : db'.honors.Pairwise fun h h' => h.key ≠ h'.key
  grants : ∀ g, g ∈ db'.userHonors ↔ g ∈ db.userHonors ∨ new g

section Lone

variable {db : HonorDb} {p : Pending statements} {user : UserId} {period : Option String}
  {d : HonorDefinition}

theorem comes_findDefinitionRow (d : HonorDefinition) (period : Option String)
    (hunique : (p.view db).honors.Pairwise fun h h' => h.key ≠ h'.key) :
    ∃ found, (findDefinitionRow d period).Comes db p found p ∧
      (∀ h, found = some h → h.key = ⟨d.honorType, d.name, period⟩) ∧
      (found = none → ¬ (LockKey.honor ⟨d.honorType, d.name, period⟩).taken (p.view db) = true) := by
  have hmem : ∀ h ∈ (p.view db).definitionRows ⟨d.honorType, d.name, period⟩,
      h.key = ⟨d.honorType, d.name, period⟩ := by
    intro h hh
    exact beq_iff_eq.mp (List.mem_filter.mp hh).2
  have hpair : ((p.view db).definitionRows ⟨d.honorType, d.name, period⟩).Pairwise
      fun h h' => h.key ≠ h'.key := hunique.sublist List.filter_sublist
  generalize hrows : (p.view db).definitionRows ⟨d.honorType, d.name, period⟩ = rows
    at hmem hpair
  rcases rows with _ | ⟨honor, _ | ⟨other, rest⟩⟩
  · refine ⟨none, .ask hrows .done, (fun h hh => nomatch hh), fun _ htaken => ?_⟩
    obtain ⟨h, hh, hkey⟩ := List.any_eq_true.mp htaken
    have hin : h ∈ (p.view db).definitionRows ⟨d.honorType, d.name, period⟩ :=
      List.mem_filter.mpr ⟨hh, hkey⟩
    rw [hrows] at hin
    cases hin
  · refine ⟨some honor, .ask hrows .done, fun h hh => ?_, (fun hnone => nomatch hnone)⟩
    cases hh
    exact hmem honor List.mem_cons_self
  · have hdistinct := List.rel_of_pairwise_cons hpair List.mem_cons_self
    have hfirst := hmem honor List.mem_cons_self
    have hsecond := hmem other (List.mem_cons_of_mem _ List.mem_cons_self)
    exact absurd (hfirst.trans hsecond.symm) hdistinct

theorem comes_ensureDefinitionRow (d : HonorDefinition) (period : Option String)
    (hunique : (p.view db).honors.Pairwise fun h h' => h.key ≠ h'.key) :
    ∃ honor p', (ensureDefinitionRow d period).Comes db p honor p' ∧
      honor.key = d.key period ∧ Granted (p.view db) (p'.view db) fun _ => False := by
  obtain ⟨found, hfind, hkey, hfree⟩ :=
    comes_findDefinitionRow d (if d.periodic then period else none) hunique
  rcases found with _ | existing
  · have hinsert : ¬ (Write.honor ⟨d.key period, d.description⟩).row.taken (p.view db) = true :=
      hfree rfl
    refine ⟨⟨d.key period, d.description⟩, _, .bind hfind (.insert (I := statements) (w := Write.honor ⟨d.key period, d.description⟩) hinsert), rfl, ?_⟩
    have hview : UniqueHonors
        ((Write.honor ⟨d.key period, d.description⟩).apply
          { p.view db with userHonors := [] }) :=
      uniqueHonors_insert ⟨hunique, .nil⟩ hinsert
    simp only [Pending.view_leave, Pending.view_add, Pending.view_enter]
    exact ⟨rfl, rfl, rfl, hview.definitions, fun g => by simp [Write.apply]⟩
  · exact ⟨existing, p, .bind hfind .done, hkey existing rfl, rfl, rfl, rfl, hunique,
      fun g => by simp⟩

theorem comes_grantOnce (user : UserId) (honor : Honor)
    (hunique : (p.view db).honors.Pairwise fun h h' => h.key ≠ h'.key) :
    ∃ granted p', (grantOnce user honor).Comes db p granted p' ∧
      Granted (p.view db) (p'.view db) fun g => g = ⟨user, honor.key⟩ := by
  cases hgrant : (p.view db).grant user honor.key with
  | some existing =>
    refine ⟨none, p, .ask hgrant .done, rfl, rfl, rfl, hunique, fun g => ?_⟩
    have hholds := List.find?_some hgrant
    rw [Bool.and_eq_true, beq_iff_eq, beq_iff_eq] at hholds
    have hin : (⟨user, honor.key⟩ : UserHonor) ∈ (p.view db).userHonors := by
      rw [← hholds.1, ← hholds.2]
      exact List.mem_of_find?_eq_some hgrant
    constructor
    · exact Or.inl
    · rintro (hold | rfl)
      · exact hold
      · exact hin
  | none =>
    have hfree : ¬ (LockKey.userHonor user honor.key).taken (p.view db) = true := by
      intro htaken
      obtain ⟨g, hg, hsame⟩ := List.any_eq_true.mp htaken
      exact List.find?_eq_none.mp hgrant g hg hsame
    refine ⟨some ⟨user, honor.key⟩,
      ((p.enter (.userHonor user honor.key)).add (.userHonor ⟨user, honor.key⟩)).leave,
      .ask hgrant (.insert (I := statements) (w := Write.userHonor ⟨user, honor.key⟩) hfree), ?_⟩
    simp only [Pending.view_leave, Pending.view_add, Pending.view_enter]
    exact ⟨rfl, rfl, rfl, hunique, fun g => by simp [Write.apply]⟩

theorem comes_grantAll (user : UserId) (period : Option String) (ds : List HonorDefinition)
    (hunique : (p.view db).honors.Pairwise fun h h' => h.key ≠ h'.key) :
    ∃ granted p', (grantAll user period ds).Comes db p granted p' ∧
      Granted (p.view db) (p'.view db) fun g => ∃ d ∈ ds, g = ⟨user, d.key period⟩ := by
  induction ds generalizing p with
  | nil => exact ⟨[], p, .done, rfl, rfl, rfl, hunique, fun g => by simp⟩
  | cons d rest ih =>
    obtain ⟨honor, p₁, hensure, hkey, h₁⟩ := comes_ensureDefinitionRow d period hunique
    obtain ⟨userHonor, p₂, hgrant, h₂⟩ := comes_grantOnce user honor h₁.definitions
    obtain ⟨granted, p₃, hrest, h₃⟩ := ih h₂.definitions
    refine ⟨_, p₃, .bind hensure (.bind hgrant (.bind hrest .done)),
      h₃.users.trans (h₂.users.trans h₁.users), h₃.claims.trans (h₂.claims.trans h₁.claims),
      h₃.ledger.trans (h₂.ledger.trans h₁.ledger), h₃.definitions, fun g => ?_⟩
    rw [h₃.grants, h₂.grants, h₁.grants, hkey]
    simp only [List.mem_cons, exists_eq_or_imp, or_false, or_assoc]

/-- Alone, an evaluation of a known user succeeds and grants exactly what it matched. -/
theorem run_evaluateHonors (event : HonorEvaluationEvent) (huser : user ∈ db.users)
    (hunique : UniqueHonors db) :
    ∃ granted db', (evaluateHonors user event).run db = .ok (granted, db') ∧
      Granted db db' fun g =>
        ∃ d ∈ matchingHonorDefinitions event (db.factsFor user event.trigger),
          g = ⟨user, d.key event.period⟩ := by
  have hrequire : (requireUser user).Comes db .start () .start := by
    have hcontains : db.users.contains user = true := List.contains_iff_mem.mpr huser
    exact .ask hcontains .done
  have hfacts : (honorFacts user event.trigger).Comes db .start (db.factsFor user event.trigger)
      .start := by
    unfold honorFacts HonorDb.factsFor
    split
    · exact .done
    · exact .ask rfl (.ask rfl (.ask rfl .done))
  have hstart : (Pending.start (I := statements)).view db = db := Pending.view_start db
  have hdefinitions : ((Pending.start (I := statements)).view db).honors.Pairwise
      fun h h' => h.key ≠ h'.key := by
    rw [hstart]
    exact hunique.definitions
  obtain ⟨granted, p', hgrant, hgranted⟩ := comes_grantAll user event.period
    (matchingHonorDefinitions event (db.factsFor user event.trigger)) hdefinitions
  rw [hstart] at hgranted
  exact ⟨granted, p'.view db, (Txn.Comes.bind hrequire (.bind hfacts hgrant)).run, hgranted⟩

theorem run_evaluateHonors_unknown {event : HonorEvaluationEvent} (huser : user ∉ db.users) :
    (evaluateHonors user event).run db = .error (.userNotFound user) := by
  have hcontains : db.users.contains user = false := by
    simpa using huser
  have hanswer : Query.answer (.user user) db = false := hcontains
  simp only [evaluateHonors, requireUser, Txn.run, bind, Txn.bind, ask, Txn.exec,
    Pending.view_start, hanswer]
  rfl

end Lone

section Catalog

theorem fixedHonorDefinitions_injective : ∀ d ∈ fixedHonorDefinitions,
    ∀ d' ∈ fixedHonorDefinitions, d.honorType = d'.honorType → d.name = d'.name → d = d' := by
  decide

theorem bestRank_of_lifetime : ∀ d ∈ fixedHonorDefinitions, d.periodic = false →
    d.bestRank = none := by
  decide

def Awards (event : HonorEvaluationEvent) (facts : HonorFacts) (key : HonorKey) : Prop :=
  ∃ d ∈ matchingHonorDefinitions event facts, d.key event.period = key

theorem awards_lifetime_iff {d : HonorDefinition} (hd : d ∈ fixedHonorDefinitions)
    (hlifetime : d.periodic = false) {event : HonorEvaluationEvent} {facts : HonorFacts} :
    Awards event facts (d.key none) ↔
      event.trigger.lifetime = true ∧ d.reached facts = true := by
  have hsame : ∀ d' ∈ fixedHonorDefinitions, d'.key event.period = d.key none → d' = d := by
    intro d' hd' hkey
    obtain ⟨htype, hname, _⟩ := HonorKey.mk.inj hkey
    exact fixedHonorDefinitions_injective d' hd' d hd htype hname
  unfold Awards matchingHonorDefinitions
  by_cases htrigger : event.trigger.lifetime = true
  · rw [if_pos htrigger]
    constructor
    · rintro ⟨d', hmem, hkey⟩
      obtain ⟨hd', hreached⟩ := List.mem_filter.mp hmem
      rw [hsame d' hd' hkey] at hreached
      exact ⟨htrigger, hreached⟩
    · rintro ⟨_, hreached⟩
      refine ⟨d, List.mem_filter.mpr ⟨hd, hreached⟩, ?_⟩
      simp only [HonorDefinition.key, hlifetime, Bool.false_eq_true, if_false]
  · rw [if_neg htrigger]
    constructor
    · rintro ⟨d', hmem, hkey⟩
      obtain ⟨hd', hranked⟩ := List.mem_filter.mp hmem
      have hnone : d.ranked event.rank = false := by
        unfold HonorDefinition.ranked
        rw [bestRank_of_lifetime d hd hlifetime]
      rw [hsame d' hd' hkey, hnone, Bool.and_false] at hranked
      cases hranked
    · rintro ⟨htrue, _⟩
      exact absurd htrue htrigger

end Catalog

section Histories

/-- What happens to the tables, one transaction after another. A trigger may be lost. -/
inductive Moment
  | complete (row : ℕ) (instant : Instant)
  | relocate (row : ℕ)
  | post (e : PointsLedger)
  | trigger (user : UserId) (event : HonorEvaluationEvent) (ran : Bool)

/-- The store behind a transaction that is run alone. -/
def HonorDb.after (db : HonorDb) (call : Call) : HonorDb :=
  match call.program.run db with
  | .ok (_, db') => db'
  | .error _ => db

/-- `runs` says of a kept and of a lost trigger whether it runs here. -/
def Moment.step (runs : Bool → Bool) (db : HonorDb) : Moment → HonorDb
  | .complete row instant => db.after (.complete row instant)
  | .relocate row => db.after (.relocate row)
  | .post e => db.after (.post e)
  | .trigger user event ran => if runs ran then db.after (.evaluate user event) else db

def play (runs : Bool → Bool) (db : HonorDb) (history : List Moment) : HonorDb :=
  history.foldl (Moment.step runs) db

def happened (ran : Bool) : Bool := ran

def always (_ : Bool) : Bool := true

def never (_ : Bool) : Bool := false

structure Evaluation where
  event : HonorEvaluationEvent
  facts : HonorFacts
  ran : Bool

def evaluations (user : UserId) : HonorDb → List Moment → List Evaluation
  | _, [] => []
  | db, .trigger u event ran :: rest =>
    if u = user then ⟨event, db.factsFor user event.trigger, ran⟩ :: evaluations user db rest
    else evaluations user db rest
  | db, m :: rest => evaluations user (m.step never db) rest

structure SameFacts (db db' : HonorDb) : Prop where
  users : db'.users = db.users
  claims : db'.claims = db.claims
  ledger : db'.ledger = db.ledger

variable {db db' : HonorDb} {user : UserId} {runs : Bool → Bool}

theorem SameFacts.refl (db : HonorDb) : SameFacts db db := ⟨rfl, rfl, rfl⟩

theorem SameFacts.facts (h : SameFacts db db') (user : UserId) : db'.facts user = db.facts user := by
  simp only [HonorDb.facts, HonorDb.completionCounts, HonorDb.tiersNewestFirst,
    HonorDb.completedClaims, h.claims, h.ledger]

theorem SameFacts.factsFor (h : SameFacts db db') (user : UserId) (trigger : HonorTrigger) :
    db'.factsFor user trigger = db.factsFor user trigger := by
  unfold HonorDb.factsFor
  rw [h.facts]

theorem after_unique (h : UniqueHonors db) (call : Call) : UniqueHonors (db.after call) := by
  unfold HonorDb.after
  split
  next granted db' hrun =>
    obtain ⟨p, hends, rfl⟩ := Txn.run_ends (D := locking) hrun
    exact honorService_sound.keeps call db granted p h hends
  next => exact h

theorem step_unique (h : UniqueHonors db) (m : Moment) : UniqueHonors (m.step runs db) := by
  cases m with
  | complete row instant => exact after_unique h (.complete row instant)
  | relocate row => exact after_unique h (.relocate row)
  | post e => exact after_unique h (.post e)
  | trigger u event ran =>
    change UniqueHonors (if runs ran then db.after (.evaluate u event) else db)
    split
    · exact after_unique h (.evaluate u event)
    · exact h

theorem play_unique (runs : Bool → Bool) (h : UniqueHonors db) (history : List Moment) :
    UniqueHonors (play runs db history) := by
  induction history generalizing db with
  | nil => exact h
  | cons m rest ih => exact ih (step_unique h m)

theorem after_post (e : PointsLedger) : db.after (.post e) =
    if db.ledger.any (·.triple == e.triple) then db else { db with ledger := db.ledger ++ [e] } := by
  have hexec : (Call.post e).program.exec db .start none =
      if db.ledger.any (·.triple == e.triple) then (.error .integrityError, .start)
      else (.ok [], Pending.start.add (Write.post e)) := rfl
  unfold HonorDb.after Txn.run
  rw [hexec]
  cases db.ledger.any (·.triple == e.triple) with
  | true => rfl
  | false => rfl

/-- An evaluation leaves the facts alone and gives the user what it awards. -/
theorem after_evaluate (hunique : UniqueHonors db) (u : UserId) (event : HonorEvaluationEvent) :
    SameFacts db (db.after (.evaluate u event)) ∧
      ∀ user key, (db.after (.evaluate u event)).Holds user key ↔ db.Holds user key ∨
        (user = u ∧ u ∈ db.users ∧ Awards event (db.factsFor u event.trigger) key) := by
  by_cases huser : u ∈ db.users
  · obtain ⟨granted, db', hrun, h⟩ := run_evaluateHonors event huser hunique
    have hafter : db.after (.evaluate u event) = db' := by
      simp only [HonorDb.after, Call.program, hrun]
    rw [hafter]
    refine ⟨⟨h.users, h.claims, h.ledger⟩, fun user key => (h.grants _).trans (or_congr_right ?_)⟩
    constructor
    · rintro ⟨d, hd, hg⟩
      obtain ⟨rfl, rfl⟩ := UserHonor.mk.inj hg
      exact ⟨rfl, huser, d, hd, rfl⟩
    · rintro ⟨rfl, _, d, hd, rfl⟩
      exact ⟨d, hd, rfl⟩
  · have hafter : db.after (.evaluate u event) = db := by
      simp only [HonorDb.after, Call.program, run_evaluateHonors_unknown huser]
    rw [hafter]
    refine ⟨.refl db, fun user key => ?_⟩
    simp only [huser, false_and, and_false, or_false]

/-- Facts move alike whatever triggers run. -/
theorem step_facts (hunique : UniqueHonors db') (h : SameFacts db db') (m : Moment) :
    SameFacts (m.step never db) (m.step runs db') := by
  cases m with
  | complete row instant =>
    refine ⟨h.users, ?_, h.ledger⟩
    change db'.claims.modify row _ = db.claims.modify row _
    rw [h.claims]
  | relocate row =>
    refine ⟨h.users, ?_, h.ledger⟩
    change relocated db'.claims row = relocated db.claims row
    rw [h.claims]
  | post e =>
    change SameFacts (db.after (.post e)) (db'.after (.post e))
    rw [after_post, after_post, h.ledger]
    split
    · exact h
    · exact ⟨h.users, h.claims, rfl⟩
  | trigger u event ran =>
    change SameFacts db (if runs ran then db'.after (.evaluate u event) else db')
    split
    · have hsame := (after_evaluate hunique u event).1
      exact ⟨hsame.users.trans h.users, hsame.claims.trans h.claims, hsame.ledger.trans h.ledger⟩
    · exact h

theorem play_facts (hunique : UniqueHonors db') (h : SameFacts db db') (history : List Moment) :
    SameFacts (play never db history) (play runs db' history) := by
  induction history generalizing db db' with
  | nil => exact h
  | cons m rest ih => exact ih (step_unique hunique m) (step_facts hunique h m)

theorem step_never_users (m : Moment) : (m.step never db).users = db.users := by
  cases m with
  | complete row instant => rfl
  | relocate row => rfl
  | post e =>
    change (db.after (.post e)).users = db.users
    rw [after_post]
    split
    · rfl
    · rfl
  | trigger u event ran => rfl

/-- A user holds what was held at first and what was awarded at the triggers that ran. -/
theorem holds_play (huser : user ∈ db.users) (hunique : UniqueHonors db') (h : SameFacts db db')
    (history : List Moment) (key : HonorKey) :
    (play runs db' history).Holds user key ↔ db'.Holds user key ∨
      ∃ e ∈ evaluations user db history, runs e.ran = true ∧ Awards e.event e.facts key := by
  induction history generalizing db db' with
  | nil => simp [play, evaluations]
  | cons m rest ih =>
    have hknown : user ∈ (m.step never db).users := by
      rw [step_never_users]
      exact huser
    refine (ih hknown (step_unique hunique m) (step_facts hunique h m)).trans ?_
    cases m with
    | complete row instant => exact Iff.rfl
    | relocate row => exact Iff.rfl
    | post e =>
      have hholds : (db'.after (.post e)).Holds user key ↔ db'.Holds user key := by
        rw [after_post]
        split
        · exact Iff.rfl
        · exact Iff.rfl
      exact or_congr_left hholds
    | trigger u event ran =>
      have hstep : ((Moment.trigger u event ran).step runs db').Holds user key ↔
          db'.Holds user key ∨ (runs ran = true ∧ user = u ∧
            Awards event (db.factsFor user event.trigger) key) := by
        change (if runs ran then db'.after (.evaluate u event) else db').Holds user key ↔ _
        split
        next hran =>
          rw [(after_evaluate hunique u event).2, h.factsFor, h.users]
          constructor
          · rintro (hold | ⟨rfl, _, hawards⟩)
            · exact Or.inl hold
            · exact Or.inr ⟨hran, rfl, hawards⟩
          · rintro (hold | ⟨_, rfl, hawards⟩)
            · exact Or.inl hold
            · exact Or.inr ⟨rfl, huser, hawards⟩
        next hran => simp [hran]
      have hevaluations : evaluations user db (.trigger u event ran :: rest) =
          if u = user then ⟨event, db.factsFor user event.trigger, ran⟩ :: evaluations user db rest
          else evaluations user db rest := rfl
      have hsame : (Moment.trigger u event ran).step never db = db := rfl
      rw [hstep, hevaluations, hsame, or_assoc]
      by_cases hu : u = user
      · rw [if_pos hu]
        simp only [hu, true_and, List.mem_cons, exists_eq_or_imp]
      · rw [if_neg hu]
        simp only [Ne.symm hu, false_and, and_false, false_or]

/-- Completions only add to the completed claims. -/
theorem countP_modify_le {α : Type*} {p : α → Bool} {f : α → α} (hf : ∀ a, p a = true → p (f a) = true)
    (l : List α) (n : ℕ) : l.countP p ≤ (l.modify n f).countP p := by
  induction l generalizing n with
  | nil => simp
  | cons a rest ih =>
    cases n with
    | zero =>
      rw [List.modify_zero_cons, List.countP_cons, List.countP_cons]
      have hle : (if p a = true then 1 else 0) ≤ if p (f a) = true then 1 else 0 := by
        split
        next h => rw [if_pos (hf a h)]
        next => exact Nat.zero_le _
      omega
    | succ n =>
      rw [List.modify_succ_cons, List.countP_cons, List.countP_cons]
      have := ih n
      omega

theorem relocated_perm (claims : List AssignmentClaim) (row : ℕ) :
    (relocated claims row).Perm claims := by
  unfold relocated
  by_cases hrow : row < claims.length
  · rw [List.getElem?_eq_getElem hrow, Option.toList_some]
    exact (List.perm_append_singleton _ _).trans (List.getElem_cons_eraseIdx_perm hrow)
  · rw [List.getElem?_eq_none (by omega), List.eraseIdx_of_length_le (by omega)]
    simp

theorem completedCount_eq (db : HonorDb) (user : UserId) : (db.facts user).completedCount =
    db.claims.countP fun c => c.userId == user && c.status == .completed :=
  List.countP_eq_length_filter.symm

theorem completedCount_step (m : Moment) :
    (db.facts user).completedCount ≤ ((m.step never db).facts user).completedCount := by
  rw [completedCount_eq, completedCount_eq]
  cases m with
  | complete row instant =>
    refine countP_modify_le (fun c hc => ?_) db.claims row
    rw [Bool.and_eq_true, beq_iff_eq, beq_iff_eq] at hc
    unfold approved
    split
    · simp [hc.1]
    · simp [hc]
  | relocate row => exact (((relocated_perm db.claims row).countP_eq _).symm).le
  | post e =>
    change _ ≤ (db.after (.post e)).claims.countP _
    rw [after_post]
    split
    · exact le_rfl
    · exact le_rfl
  | trigger u event ran => exact le_rfl

theorem completedCount_play (db : HonorDb) (user : UserId) (history : List Moment) :
    (db.facts user).completedCount ≤ ((play never db history).facts user).completedCount := by
  induction history generalizing db with
  | nil => exact le_rfl
  | cons m rest ih => exact (completedCount_step m).trans (ih _)

/-- The completed count of a trigger is reached ever after. -/
theorem completedCount_evaluation (history : List Moment) {e : Evaluation}
    (he : e ∈ evaluations user db history) :
    e.facts.completedCount ≤ ((play never db history).facts user).completedCount := by
  induction history generalizing db with
  | nil => cases he
  | cons m rest ih =>
    cases m with
    | complete row instant => exact ih he
    | relocate row => exact ih he
    | post entry => exact ih he
    | trigger u event ran =>
      unfold evaluations at he
      split at he
      · rcases List.mem_cons.mp he with rfl | hrest
        · refine le_trans ?_ (completedCount_play db user rest)
          change (db.factsFor user event.trigger).completedCount ≤ _
          unfold HonorDb.factsFor
          split
          · exact Nat.zero_le _
          · exact le_rfl
        · exact ih hrest
      · exact ih he

theorem play_never_users (history : List Moment) : (play never db history).users = db.users := by
  induction history generalizing db with
  | nil => rfl
  | cons m rest ih => exact ih.trans (step_never_users m)

theorem reached_of_completedCount {d : HonorDefinition} (htype : d.honorType = .totalCompleted)
    {facts facts' : HonorFacts} (hle : facts.completedCount ≤ facts'.completedCount)
    (h : d.reached facts = true) : d.reached facts' = true := by
  unfold HonorDefinition.reached at h ⊢
  cases hthreshold : d.threshold with
  | none =>
    rw [hthreshold] at h
    cases h
  | some n =>
    rw [hthreshold] at h
    simp only [htype, BEq.rfl, Bool.true_and, Bool.or_eq_true, decide_eq_true_eq] at h ⊢
    rcases h with (h | h) | h
    · exact Or.inl (Or.inl (h.trans hle))
    · simp at h
    · simp at h

def Reached (db : HonorDb) (user : UserId) (history : List Moment) (d : HonorDefinition)
    (ran : Bool) : Prop :=
  ∃ e ∈ evaluations user db history, e.ran = ran ∧ e.event.trigger.lifetime = true ∧
    d.reached e.facts = true

/-- What was reached at a lost trigger was held before, is reached again at one that ran or
is still reached by the later evaluation. Only a completed count needs no such luck there. -/
def Healing (db : HonorDb) (user : UserId) (history : List Moment) (later : HonorEvaluationEvent) :
    Prop :=
  ∀ d ∈ fixedHonorDefinitions, d.periodic = false →
    (later.trigger.lifetime = true → d.honorType ≠ .totalCompleted) →
    Reached db user history d false →
      db.Holds user (d.key none) ∨ Reached db user history d true ∨
        (later.trigger.lifetime = true ∧ d.reached ((play never db history).facts user) = true)

theorem holds_lifetime (runs : Bool → Bool) (huser : user ∈ db.users) (hunique : UniqueHonors db)
    (history : List Moment) {d : HonorDefinition} (hd : d ∈ fixedHonorDefinitions)
    (hlifetime : d.periodic = false) :
    (play runs db history).Holds user (d.key none) ↔ db.Holds user (d.key none) ∨
      ∃ ran, runs ran = true ∧ Reached db user history d ran := by
  rw [holds_play huser hunique (.refl db) history]
  simp only [awards_lifetime_iff hd hlifetime]
  constructor
  · rintro (hold | ⟨e, he, hran, htrigger, hreached⟩)
    · exact Or.inl hold
    · exact Or.inr ⟨e.ran, hran, e, he, rfl, htrigger, hreached⟩
  · rintro (hold | ⟨_, hran, e, he, rfl, htrigger, hreached⟩)
    · exact Or.inl hold
    · exact Or.inr ⟨e, he, hran, htrigger, hreached⟩

/-- A later evaluation adds the lifetime honors that its own facts reach. -/
theorem holds_later (hunique : UniqueHonors db) (history : List Moment)
    {later : HonorEvaluationEvent} {granted : List UserHonor} {healed : HonorDb}
    (hrun : (evaluateHonors user later).run (play happened db history) = .ok (granted, healed))
    {d : HonorDefinition} (hd : d ∈ fixedHonorDefinitions) (hlifetime : d.periodic = false) :
    user ∈ db.users ∧ (healed.Holds user (d.key none) ↔
      (play happened db history).Holds user (d.key none) ∨
        (later.trigger.lifetime = true ∧
          d.reached ((play never db history).facts user) = true)) := by
  have hsame : SameFacts (play never db history) (play happened db history) :=
    play_facts hunique (.refl db) history
  have husers : (play happened db history).users = db.users :=
    hsame.users.trans (play_never_users history)
  have huser : user ∈ (play happened db history).users := by
    by_contra hmissing
    rw [run_evaluateHonors_unknown hmissing] at hrun
    cases hrun
  have hafter : (play happened db history).after (.evaluate user later) = healed := by
    simp only [HonorDb.after, Call.program, hrun]
  have hholds := (after_evaluate (play_unique happened hunique history) user later).2
    user (d.key none)
  rw [hafter, awards_lifetime_iff hd hlifetime] at hholds
  refine ⟨husers ▸ huser, hholds.trans (or_congr_right ?_)⟩
  constructor
  · rintro ⟨_, _, htrigger, hreached⟩
    rw [HonorDb.factsFor, htrigger, if_neg (by simp), hsame.facts] at hreached
    exact ⟨htrigger, hreached⟩
  · rintro ⟨htrigger, hreached⟩
    refine ⟨rfl, huser, htrigger, ?_⟩
    rw [HonorDb.factsFor, htrigger, if_neg (by simp), hsame.facts]
    exact hreached

end Histories

section Honors

/-- A later evaluation makes up for the lost triggers exactly when no streak and no sum of
points that one of them missed has fallen since; and in every interleaving no honor is
granted twice. -/
theorem healed_iff {db : HonorDb} (hunique : UniqueHonors db) (history : List Moment)
    {user : UserId} {later : HonorEvaluationEvent} {granted : List UserHonor} {healed : HonorDb}
    (hrun : (evaluateHonors user later).run (play happened db history) = .ok (granted, healed)) :
    ((∀ d ∈ fixedHonorDefinitions, d.periodic = false →
        (play always db history).Holds user (d.key none) → healed.Holds user (d.key none)) ↔
      Healing db user history later) ∧
    ∀ (ι : Type) [DecidableEq ι]
      (c c' : Config ι HonorDb (Session statements Call HonorError (List UserHonor)))
      (a : Move ι (Call × List UserHonor)), (honorSystem ι).Reach c →
      (c.store.userHonors.Pairwise fun g g' => ¬ (g.userId = g'.userId ∧ g.honorId = g'.honorId)) ∧
      ((honorSystem ι).step c a c' →
        c'.store.userHonors = c.store.userHonors ++ a.2.elim [] Prod.snd) := by
  refine ⟨⟨?_, ?_⟩, fun ι _ c c' a hc => ⟨(uniqueHonors_reach hc).grants, reported_step hc⟩⟩
  · intro hheal d hd hlifetime _ hlost
    obtain ⟨huser, hlater⟩ := holds_later hunique history hrun hd hlifetime
    have hideal := (holds_lifetime always huser hunique history hd hlifetime).mpr
      (Or.inr ⟨false, rfl, hlost⟩)
    rcases hlater.mp (hheal d hd hlifetime hideal) with hheld | hnow
    · rcases (holds_lifetime happened huser hunique history hd hlifetime).mp hheld with
        hold | ⟨ran, hran, hreached⟩
      · exact Or.inl hold
      · have hran : ran = true := hran
        rw [hran] at hreached
        exact Or.inr (Or.inl hreached)
    · exact Or.inr (Or.inr hnow)
  · intro hhealing d hd hlifetime hideal
    obtain ⟨huser, hlater⟩ := holds_later hunique history hrun hd hlifetime
    have hheld := holds_lifetime happened huser hunique history hd hlifetime
    rcases (holds_lifetime always huser hunique history hd hlifetime).mp hideal with
      hold | ⟨ran, _, hreached⟩
    · exact hlater.mpr (Or.inl (hheld.mpr (Or.inl hold)))
    · cases ran with
      | true => exact hlater.mpr (Or.inl (hheld.mpr (Or.inr ⟨true, rfl, hreached⟩)))
      | false =>
        by_cases hcount : later.trigger.lifetime = true ∧ d.honorType = .totalCompleted
        · obtain ⟨e, he, _, _, hfacts⟩ := hreached
          exact hlater.mpr (Or.inr ⟨hcount.1,
            reached_of_completedCount hcount.2 (completedCount_evaluation history he) hfacts⟩)
        · rcases hhealing d hd hlifetime (fun htrigger htype => hcount ⟨htrigger, htype⟩) hreached
            with hold | hran | hnow
          · exact hlater.mpr (Or.inl (hheld.mpr (Or.inl hold)))
          · exact hlater.mpr (Or.inl (hheld.mpr (Or.inr ⟨true, rfl, hran⟩)))
          · exact hlater.mpr (Or.inr hnow)

def lockedClaim (n : ℕ) (status : ClaimStatus) (tier : ℤ) : AssignmentClaim where
  assignmentId := n
  taskId := n
  userId := 1
  status := status
  claimedAt := n
  deadlineAt := 100
  graceDeadlineAt := 100
  baseRewardPointsSnapshot := 10
  submissionSchemaVersion := none
  rewardLockStatus := .provisional
  rewardTierLocked := some tier
  rewardLockedAt := some n
  lockedRewardPoints := some 10
  latestSubmissionId := none
  revisionDeadlineAt := none
  terminalAt := if status = .completed then some n else none
  base_reward_points_snapshot := by decide
  locked_reward_points := by
    intro points h
    cases h
    decide

def claimCompletedEvent : HonorEvaluationEvent where
  trigger := .claimCompleted
  rank := none
  period := none
  lifetime_facts _ := ⟨rfl, rfl⟩
  rank_facts h := nomatch h

/-- Nine claims were completed on time; a tenth on time and an eleventh late one are in
review. -/
def streakDb : HonorDb where
  users := [1]
  claims := (List.range 9).map (fun n => lockedClaim n .completed 100) ++
    [lockedClaim 9 .underReview 100, lockedClaim 10 .underReview 60]
  ledger := []
  honors := []
  userHonors := []

def streakHistory : List Moment :=
  [.complete 9 20, .trigger 1 claimCompletedEvent false, .complete 10 30]

/-- The trigger of the tenth completion was lost, and the late eleventh broke the streak
before the next one ran. -/
theorem streak_not_healed :
    ∃ granted healed, (evaluateHonors 1 claimCompletedEvent).run
        (play happened streakDb streakHistory) = .ok (granted, healed) ∧
      (play always streakDb streakHistory).Holds 1 ⟨.onTimeStreak, "连续 10 个任务按时", none⟩ ∧
      ¬ healed.Holds 1 ⟨.onTimeStreak, "连续 10 个任务按时", none⟩ :=
  ⟨_, _, rfl, by decide +kernel, by decide +kernel⟩

theorem healed_iff_streak :
    ∃ granted healed, (evaluateHonors 1 claimCompletedEvent).run
        (play happened streakDb streakHistory) = .ok (granted, healed) ∧
      ((∀ d ∈ fixedHonorDefinitions, d.periodic = false →
          (play always streakDb streakHistory).Holds 1 (d.key none) →
          healed.Holds 1 (d.key none)) ↔
        Healing streakDb 1 streakHistory claimCompletedEvent) :=
  ⟨_, _, rfl, (healed_iff ⟨.nil, .nil⟩ streakHistory rfl).1⟩

end Honors

end CampusQuest.Rankings
