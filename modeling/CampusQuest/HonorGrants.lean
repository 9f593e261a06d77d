import CampusQuest.HonorService

/-!
Evaluations of any users interleave statement by statement with completions and postings.
A grant is inserted under its unique key, so whatever the interleaving, no user holds an
honor twice, and what a committed evaluation reports is exactly what it added.
-/

namespace CampusQuest.Rankings

open Transactions Runs Locking
open Points (PointsLedger)

/-- The transactions around honors. The last three belong to other services. -/
inductive Call
  | evaluate (user : UserId) (event : HonorEvaluationEvent)
  | complete (row : ℕ) (instant : Instant)
  | relocate (row : ℕ)
  | post (e : PointsLedger)

def Call.program : Call → HonorTxn (List UserHonor)
  | .evaluate user event => evaluateHonors user event
  | .complete row instant => .write (.complete row instant) (.done [])
  | .relocate row => .write (.relocate row) (.done [])
  | .post e => .insert (.post e) .integrityError (.done [])

def honorService : Service statements Call HonorError (List UserHonor) := ⟨Call.program⟩

/-- A write of a new row under a unique key. -/
def Write.inserts : Write → Bool
  | .honor _ | .userHonor _ | .post _ => true
  | .complete _ _ | .relocate _ => false

theorem taken_apply_iff {k : LockKey} {w : Write} {db : HonorDb} :
    k.taken (w.apply db) = true ↔ k.taken db = true ∨ (k = w.row ∧ w.inserts = true) := by
  cases k <;> cases w <;> simp [LockKey.taken, Write.apply, Write.row, Write.inserts]
  all_goals grind

/-- A key taken in the view of a transaction is taken in the store or is one it inserted. -/
theorem taken_view_iff {k : LockKey} (p : Pending statements) {db : HonorDb} :
    k.taken (p.view db) = true ↔
      k.taken db = true ∨ ∃ w ∈ p.writes, k = Write.row w ∧ w.inserts = true := by
  obtain ⟨writes, locks, seen, catches⟩ := p
  unfold Pending.view
  dsimp only
  induction writes generalizing db with
  | nil => simp
  | cons w ws ih =>
    rw [List.foldl_cons, ih, taken_apply_iff]
    simp only [List.mem_cons, exists_eq_or_imp, or_assoc]

/-- Keys are never given back, and nobody else takes a locked one. -/
structure Agree (L : LockKey → Prop) (db db' : HonorDb) : Prop where
  mono : ∀ k, LockKey.taken k db = true → LockKey.taken k db' = true
  free : ∀ k, L k → LockKey.taken k db' = true → LockKey.taken k db = true

def locking : Discipline statements where
  agree := Agree
  retained _ _ _ _ _ := True
  covered _ _ := True
  agree_mono hL h := ⟨h.mono, fun k hk => h.free k (hL k hk)⟩
  agree_apply w h := by
    constructor
    · intro k hk
      exact taken_apply_iff.mpr ((taken_apply_iff.mp hk).imp_left (h.mono k))
    · intro k hL hk
      exact taken_apply_iff.mpr ((taken_apply_iff.mp hk).imp_left (h.free k hL))
  agree_commit p _ hrows := by
    constructor
    · intro k hk
      exact (taken_view_iff p).mpr (Or.inl hk)
    · intro k hfree hk
      rcases (taken_view_iff p).mp hk with hold | ⟨w, hw, rfl, _⟩
      · exact hold
      · exact absurd (hrows w hw) hfree
  retained_answer _ _ _ _ _ := trivial
  retained_agree _ _ := trivial
  taken_apply w h := taken_apply_iff.mpr (Or.inl h)
  taken_agree h hk := h.mono _ hk
  free_agree h hL hk := h.free _ hL hk

/-- The unique indexes of the two honor tables. -/
structure UniqueHonors (db : HonorDb) : Prop where
  definitions : db.honors.Pairwise fun h h' => h.key ≠ h'.key
  grants : db.userHonors.Pairwise fun g g' => ¬ (g.userId = g'.userId ∧ g.honorId = g'.honorId)

theorem uniqueHonors_insert {w : Write} {db : HonorDb} (h : UniqueHonors db)
    (hfree : ¬ w.row.taken db = true) : UniqueHonors (w.apply db) := by
  cases w with
  | honor row =>
    refine ⟨List.pairwise_append.mpr ⟨h.definitions, List.pairwise_singleton _ _, ?_⟩, h.grants⟩
    intro old hold new hnew hkey
    rw [List.mem_singleton.mp hnew] at hkey
    exact hfree (List.any_eq_true.mpr ⟨old, hold, by simpa using hkey⟩)
  | userHonor row =>
    refine ⟨h.definitions, List.pairwise_append.mpr ⟨h.grants, List.pairwise_singleton _ _, ?_⟩⟩
    intro old hold new hnew hkey
    rw [List.mem_singleton.mp hnew] at hkey
    exact hfree (List.any_eq_true.mpr ⟨old, hold, by simpa using hkey⟩)
  | complete row instant => exact ⟨h.definitions, h.grants⟩
  | relocate row => exact ⟨h.definitions, h.grants⟩
  | post e => exact ⟨h.definitions, h.grants⟩

/-- A write that inserts nothing leaves the honor tables alone. -/
theorem uniqueHonors_plain {w : Write} {db : HonorDb} (h : UniqueHonors db)
    (hplain : w.inserts = false) : UniqueHonors (w.apply db) := by
  cases w with
  | honor row => cases hplain
  | userHonor row => cases hplain
  | post e => cases hplain
  | complete row instant => exact ⟨h.definitions, h.grants⟩
  | relocate row => exact ⟨h.definitions, h.grants⟩

section Plain

variable {Plain : Write → Prop} {user : UserId} {d : HonorDefinition} {period : Option String}

theorem writes_findDefinitionRow :
    (findDefinitionRow d period).Writes (I := statements) Plain := by
  refine .ask fun rows => ?_
  rcases rows with _ | ⟨honor, _ | ⟨_, _⟩⟩
  · exact .done none
  · exact .done (some honor)
  · exact .raise _

theorem writes_ensureDefinitionRow :
    (ensureDefinitionRow d period).Writes (I := statements) Plain := by
  refine .bind writes_findDefinitionRow fun found => ?_
  rcases found with _ | existing
  · refine .savepoint (.bind writes_findDefinitionRow fun adopted => ?_) (.insert (.release (.done _)))
    rcases adopted with _ | honor
    · exact .raise _
    · exact .done honor
  · exact .done existing

theorem writes_grantOnce {honor : Honor} :
    (grantOnce user honor).Writes (I := statements) Plain := by
  refine .ask fun existing => ?_
  rcases existing with _ | grant
  · refine .savepoint (.ask fun raced => ?_) (.insert (.release (.done _)))
    rcases raced with _ | grant
    · exact .raise _
    · exact .done none
  · exact .done none

theorem writes_grantAll {ds : List HonorDefinition} :
    (grantAll user period ds).Writes (I := statements) Plain := by
  induction ds with
  | nil => exact .done []
  | cons d rest ih =>
    exact .bind writes_ensureDefinitionRow fun honor =>
      .bind writes_grantOnce fun userHonor => .bind ih fun granted => .done _

theorem writes_evaluateHonors {event : HonorEvaluationEvent} :
    (evaluateHonors user event).Writes (I := statements) Plain := by
  refine .bind (.ask fun found => ?_) fun _ => .bind ?_ fun facts => writes_grantAll
  · rcases found with _ | _
    · exact .raise _
    · exact .done ()
  · unfold honorFacts
    split
    · exact .done _
    · exact .ask fun counts => .ask fun tiers => .ask fun points => .done _

end Plain

theorem Call.writes (call : Call) :
    call.program.Writes (I := statements) fun w => w.inserts = false := by
  cases call with
  | evaluate user event => exact writes_evaluateHonors
  | complete row instant => exact .write rfl (.done [])
  | relocate row => exact .write rfl (.done [])
  | post e => exact .insert (.done [])

theorem honorService_sound : honorService.Sound locking UniqueHonors where
  covered _ _ _ _ _ _ := trivial
  keeps call db granted p hinv hends := by
    have hkeeps : UniqueHonors (p.view db) :=
      hends.keeps (fun w db h hfree => uniqueHonors_insert h hfree)
        (fun w db h hplain => uniqueHonors_plain h hplain) call.writes hinv
    exact hkeeps

section Reports

variable {db : HonorDb} {p p' : Pending statements} {user : UserId} {period : Option String}

theorem ends_findDefinitionRow {d : HonorDefinition} {r : Except HonorError (Option Honor)}
    (h : (findDefinitionRow d period).Ends locking db p r p') : p' = p := by
  obtain ⟨rows, _, hrest⟩ := h
  rcases rows with _ | ⟨honor, _ | ⟨_, _⟩⟩
  · exact hrest.2
  · exact hrest.2
  · exact hrest.2

/-- Making sure of a definition row grants nothing. -/
theorem ends_ensureDefinitionRow {d : HonorDefinition} {honor : Honor}
    (h : (ensureDefinitionRow d period).Ends locking db p (.ok honor) p') :
    (p'.view db).userHonors = (p.view db).userHonors := by
  rcases Txn.ends_bind.mp h with ⟨found, p₁, hfind, hrest⟩ | ⟨e, _, he⟩
  · rw [ends_findDefinitionRow hfind] at hrest
    rcases found with _ | existing
    · rcases Txn.ends_nested hrest with ⟨p₂, hbody, hp'⟩ | ⟨_, hhandler⟩
      · rcases hbody with ⟨_, hdone⟩ | ⟨_, _, he, _⟩
        · have hview : (p₂.view db).userHonors = (p.view db).userHonors := by
            rw [hdone.2, Pending.view_add, Pending.view_enter]
            rfl
          rcases hp' with rfl | rfl
          · exact hview
          · exact hview
        · cases he
      · rcases Txn.ends_bind.mp hhandler with ⟨adopted, p₂, hagain, hdone⟩ | ⟨e, _, he⟩
        · rw [ends_findDefinitionRow hagain] at hdone
          rcases adopted with _ | row
          · cases hdone.1
          · rw [hdone.2]
            rfl
        · cases he
    · rw [hrest.2]
  · cases he

theorem ends_grantOnce {honor : Honor} {granted : Option UserHonor}
    (h : (grantOnce user honor).Ends locking db p (.ok granted) p') :
    (p'.view db).userHonors = (p.view db).userHonors ++ granted.toList := by
  obtain ⟨existing, _, hrest⟩ := h
  rcases existing with _ | row
  · rcases Txn.ends_nested hrest with ⟨p₂, hbody, hp'⟩ | ⟨_, hhandler⟩
    · rcases hbody with ⟨_, hdone⟩ | ⟨_, _, he, _⟩
      · have hview : (p₂.view db).userHonors = (p.view db).userHonors ++ granted.toList := by
          cases hdone.1
          rw [hdone.2, Pending.view_add, Pending.view_enter]
          rfl
        rcases hp' with rfl | rfl
        · exact hview
        · exact hview
      · cases he
    · obtain ⟨raced, _, hdone⟩ := hhandler
      rcases raced with _ | row
      · cases hdone.1
      · cases hdone.1
        rw [hdone.2]
        exact (List.append_nil _).symm
  · cases hrest.1
    rw [hrest.2]
    exact (List.append_nil _).symm

theorem ends_grantAll {ds : List HonorDefinition} {granted : List UserHonor}
    (h : (grantAll user period ds).Ends locking db p (.ok granted) p') :
    (p'.view db).userHonors = (p.view db).userHonors ++ granted := by
  induction ds generalizing p p' granted with
  | nil =>
    cases h.1
    rw [h.2]
    exact (List.append_nil _).symm
  | cons d rest ih =>
    rcases Txn.ends_bind.mp h with ⟨honor, p₁, hensure, h⟩ | ⟨e, _, he⟩
    · rcases Txn.ends_bind.mp h with ⟨userHonor, p₂, hgrant, h⟩ | ⟨e, _, he⟩
      · rcases Txn.ends_bind.mp h with ⟨later, p₃, hrest, hdone⟩ | ⟨e, _, he⟩
        · cases hdone.1
          rw [hdone.2, ih hrest, ends_grantOnce hgrant, ends_ensureDefinitionRow hensure,
            List.append_assoc]
        · cases he
      · cases he
    · cases he

/-- What a committed transaction returns are the grants that it added. -/
theorem ends_program {call : Call} {granted : List UserHonor}
    (h : call.program.Ends locking db .start (.ok granted) p') :
    (p'.view db).userHonors = db.userHonors ++ granted := by
  cases call with
  | evaluate user event =>
    rcases Txn.ends_bind.mp h with ⟨_, p₁, hrequire, h⟩ | ⟨e, _, he⟩
    · obtain ⟨found, _, hfound⟩ := hrequire
      rcases found with _ | _
      · cases hfound.1
      · rw [hfound.2] at h
        rcases Txn.ends_bind.mp h with ⟨facts, p₂, hfacts, hgrant⟩ | ⟨e, _, he⟩
        · have hp : p₂ = .start := by
            unfold honorFacts at hfacts
            split at hfacts
            · exact hfacts.2
            · obtain ⟨_, _, _, _, _, _, hdone⟩ := hfacts
              exact hdone.2
          rw [hp] at hgrant
          exact ends_grantAll hgrant
        · cases he
    · cases he
  | complete row instant =>
    cases h.1
    rw [h.2]
    exact (List.append_nil _).symm
  | relocate row =>
    cases h.1
    rw [h.2]
    exact (List.append_nil _).symm
  | post e =>
    rcases h with ⟨_, hdone⟩ | ⟨_, _, he, _⟩
    · cases hdone.1
      rw [hdone.2]
      exact (List.append_nil _).symm
    · cases he

end Reports

section Interleaved

variable {ι : Type} [DecidableEq ι]

/-- The interleaved sessions of the service, from tables under their unique indexes. -/
abbrev honorSystem (ι : Type) [DecidableEq ι] :
    System (Config ι HonorDb (Session statements Call HonorError (List UserHonor)))
      (Move ι (Call × List UserHonor)) :=
  honorService.system locking ι UniqueHonors

theorem uniqueHonors_reach
    {c : Config ι HonorDb (Session statements Call HonorError (List UserHonor))}
    (hc : (honorSystem ι).Reach c) : UniqueHonors c.store :=
  honorService_sound.store_inv (fun _ h => h) hc

/-- The grants of a store are those of the start and those that commits reported. -/
theorem reported_step
    {c c' : Config ι HonorDb (Session statements Call HonorError (List UserHonor))}
    {a : Move ι (Call × List UserHonor)} (hc : (honorSystem ι).Reach c)
    (hstep : (honorSystem ι).step c a c') :
    c'.store.userHonors = c.store.userHonors ++ a.2.elim [] Prod.snd := by
  cases hstep with
  | read => exact (List.append_nil _).symm
  | commit i a m s' hcommit hfree =>
    have hknown := (honorService_sound.protocol_sound.current (fun _ h => h) hc).known i
    change Service.Commit c.store (c.proc i) a m s' at hcommit
    generalize c.proc i = m₀ at hcommit hknown
    obtain ⟨call, v, granted, p⟩ := hcommit
    exact ends_program (hknown.1.ends ⟨rfl, rfl⟩)

end Interleaved

end CampusQuest.Rankings
