import CampusQuest.AccountGovernance

/-!
There is always an administrator while nobody suspends or bans the last one. A demotion that
has passed the trigger's count is adjudicated: its target is about to be lost. Two demotions
behind their snapshots cannot both be adjudicated, because the later snapshot holds the
other's target, whose lock is taken. So the count of an adjudicated demotion leaves an
active administrator that nobody is about to demote.
-/

namespace CampusQuest.Identity

open Locking Runs Tables

/-- A request behind the trigger's snapshot, with its target and the rows it waits for. -/
def Demotes : GovernanceRequest → UserId → List UserId → Prop
  | .trigger rc row todo _, t, waits => rc.demotes row ∧ t = rc.target ∧ waits = todo
  | .visiting rc row _ todo _, t, waits => rc.demotes row ∧ t = rc.target ∧ waits = todo
  | .ready rc row _, t, waits => rc.demotes row ∧ t = rc.target ∧ waits = []
  | _, _, _ => False

section Requests

variable {m m' : GovernanceRequest} {db : Db} {t : UserId} {waits : List UserId}

theorem Demotes.holds (h : Demotes m t waits) : m.holds t := by
  cases m with
  | trigger rc row todo held => exact Or.inl h.2.1
  | visiting rc row visited todo held => exact Or.inl h.2.1
  | ready rc row held => exact Or.inl h.2.1
  | _ => exact h.elim

theorem Demotes.read (h : Demotes m t waits) : ∃ row, m.read = some (t, row) := by
  cases m with
  | trigger rc row todo held => exact ⟨row, by rw [h.2.1]; rfl⟩
  | visiting rc row visited todo held => exact ⟨row, by rw [h.2.1]; rfl⟩
  | ready rc row held => exact ⟨row, by rw [h.2.1]; rfl⟩
  | _ => exact h.elim

/-- A statement takes the snapshot, or it stops waiting only for rows that it locks. -/
theorem demotes_of_read (hread : GovernanceRead m db m') (h : Demotes m' t waits) :
    (∀ id, id ≠ t → ActiveAdmin db id → id ∈ waits) ∨
      ∃ before, Demotes m t before ∧ ∀ id ∈ before, id ∈ waits ∨ m'.holds id := by
  cases hread with
  | load => exact h.elim
  | lock => exact h.elim
  | count => exact h.elim
  | update rc row hrole => exact absurd h.1 hrole
  | perform rc row todo hrole htodo =>
    obtain ⟨_, rfl, rfl⟩ := h
    exact Or.inl fun id hne hactive => (htodo id).mpr ⟨hne, hactive⟩
  | visit rc row visited todo held =>
    obtain ⟨hdemotes, rfl, rfl⟩ := h
    refine Or.inr ⟨visited :: waits, ⟨hdemotes, rfl, rfl⟩, fun id hid => ?_⟩
    rcases List.mem_cons.mp hid with rfl | htail
    · exact Or.inr (Or.inr (Or.inl rfl))
    · exact Or.inl htail
  | keep rc row visited todo held hactive =>
    obtain ⟨hdemotes, rfl, rfl⟩ := h
    exact Or.inr ⟨waits, ⟨hdemotes, rfl, rfl⟩, fun id hid => Or.inl hid⟩
  | drop rc row visited todo held hactive =>
    obtain ⟨hdemotes, rfl, rfl⟩ := h
    exact Or.inr ⟨waits, ⟨hdemotes, rfl, rfl⟩, fun id hid => Or.inl hid⟩
  | recount rc row held hcount =>
    obtain ⟨hdemotes, rfl, rfl⟩ := h
    exact Or.inr ⟨[], ⟨hdemotes, rfl, rfl⟩, fun id hid => Or.inl hid⟩
  | begin => exact h.elim
  | skip => exact h.elim
  | judge => exact h.elim
  | refuse => exact h.elim
  | rollback => exact h.elim

theorem not_demotes_of_commit {ev : GovernanceEvent} {db' : Db}
    (hcommit : GovernanceCommit m db ev m' db') : ¬ Demotes m' t waits := by
  cases hcommit <;> exact fun h => h

/-- A commit leaves no demotion behind. -/
theorem not_ready_of_commit {ev : GovernanceEvent} {db' : Db} {rc : RoleChange} {row : User}
    {held : List UserId} : ¬ GovernanceCommit m db ev (.ready rc row held) db' := by
  rintro ⟨⟩

/-- A demotion becomes ready by the trigger's count. -/
theorem ready_of_read {rc : RoleChange} {row : User} {held : List UserId}
    (hread : GovernanceRead m db (.ready rc row held)) (hdemotes : rc.demotes row) :
    m = .trigger rc row [] held ∧ db.otherActiveAdmins rc.target ≠ 0 := by
  cases hread with
  | update _ _ hrole => exact absurd hdemotes hrole
  | recount _ _ _ hcount => exact ⟨rfl, hcount⟩

end Requests

section System

variable {ι : Type*} [DecidableEq ι]

/-- An adjudicated demotion of this account has not committed yet. -/
def Doomed (c : Config ι Db GovernanceRequest) (user : UserId) : Prop :=
  ∃ j rc row held, c.proc j = .ready rc row held ∧ rc.demotes row ∧ rc.target = user

/-- An active administrator whom no adjudicated demotion is about to take. -/
def Safe (c : Config ι Db GovernanceRequest) : Prop :=
  ∃ user, ActiveAdmin c.store user ∧ ¬ Doomed c user

/-- Of two demotions of active administrators behind their snapshots one waits for the
other's target. -/
def OneWaits (c : Config ι Db GovernanceRequest) : Prop :=
  ∀ i j t u waitsT waitsU, i ≠ j → Demotes (c.proc i) t waitsT → Demotes (c.proc j) u waitsU →
    ActiveAdmin c.store t → ActiveAdmin c.store u → t ∈ waitsU ∨ u ∈ waitsT

/-- The condition on a step: whoever suspends or bans an active administrator leaves another
one whom no adjudicated demotion is about to take. -/
def LeavesAdmin (c : Config ι Db GovernanceRequest) (m : Move ι GovernanceEvent) : Prop :=
  ∀ g target, m.2 = some (.transitioned g target) → ActiveAdmin c.store target →
    ∃ user, user ≠ target ∧ ActiveAdmin c.store user ∧ ¬ Doomed c user

variable {c c' : Config ι Db GovernanceRequest} {m : Move ι GovernanceEvent}

theorem oneWaits_step (hcurrent : governanceProtocol.Current (fun _ => True) c)
    (hcurrent' : governanceProtocol.Current (fun _ => True) c') (h : OneWaits c)
    (hstep : governanceProtocol.Step c m c') : OneWaits c' := by
  cases hstep with
  | read i m hread hfree =>
    -- The one that moves against one that stays.
    have hmoved : ∀ j t u waitsT waitsU, j ≠ i → Demotes m t waitsT →
        Demotes (c.proc j) u waitsU → ActiveAdmin c.store t → ActiveAdmin c.store u →
        t ∈ waitsU ∨ u ∈ waitsT := by
      intro j t u waitsT waitsU hne ht hu hactiveT hactiveU
      have hfreeU : ¬ m.holds u := fun hheld => hfree j hne u hheld hu.holds
      rcases demotes_of_read hread ht with hsnapshot | ⟨before, hbefore, hleft⟩
      · have hut : u ≠ t := by
          rintro rfl
          exact hfreeU ht.holds
        exact Or.inr (hsnapshot u hut hactiveU)
      · rcases h i j t u before waitsU (Ne.symm hne) hbefore hu hactiveT hactiveU with hin | hin
        · exact Or.inl hin
        · rcases hleft u hin with hwaits | hheld
          · exact Or.inr hwaits
          · exact absurd hheld hfreeU
    intro j k t u waitsT waitsU hjk ht hu hactiveT hactiveU
    dsimp only at ht hu
    by_cases hj : j = i
    · subst hj
      rw [Function.update_self] at ht
      rw [Function.update_of_ne (Ne.symm hjk)] at hu
      exact hmoved k t u waitsT waitsU (Ne.symm hjk) ht hu hactiveT hactiveU
    · rw [Function.update_of_ne hj] at ht
      by_cases hk : k = i
      · subst hk
        rw [Function.update_self] at hu
        exact (hmoved j u t waitsU waitsT hjk hu ht hactiveU hactiveT).symm
      · rw [Function.update_of_ne hk] at hu
        exact h j k t u waitsT waitsU hjk ht hu hactiveT hactiveU
  | commit i ev m db' hcommit hfree =>
    -- The targets of the others are locked, so the commit has not touched their rows.
    have hback : ∀ j t waits, Demotes (Function.update c.proc i m j) t waits →
        ActiveAdmin db' t → Demotes (c.proc j) t waits ∧ ActiveAdmin c.store t := by
      intro j t waits ht hactive
      have hj : j ≠ i := by
        rintro rfl
        rw [Function.update_self] at ht
        exact not_demotes_of_commit hcommit ht
      obtain ⟨row, hrow⟩ := ht.read
      have hafter := hcurrent'.known j t row hrow
      rw [Function.update_of_ne hj] at ht hrow
      have hbefore := hcurrent.known j t row hrow
      exact ⟨ht, (activeAdmin_congr (hafter.trans hbefore.symm)).mp hactive⟩
    intro j k t u waitsT waitsU hjk ht hu hactiveT hactiveU
    obtain ⟨ht, hactiveT⟩ := hback j t waitsT ht hactiveT
    obtain ⟨hu, hactiveU⟩ := hback k u waitsU hu hactiveU
    exact h j k t u waitsT waitsU hjk ht hu hactiveT hactiveU

/-- Whoever is doomed after a request has moved was doomed before, or the move adjudicated. -/
theorem doomed_update {db' : Db} {i : ι} {moved : GovernanceRequest} {user : UserId}
    (h : Doomed (⟨db', Function.update c.proc i moved⟩ : Config ι Db GovernanceRequest) user) :
    Doomed c user ∨
      ∃ rc row held, moved = .ready rc row held ∧ rc.demotes row ∧ rc.target = user := by
  obtain ⟨j, rc, row, held, hj, hrest⟩ := h
  by_cases hji : j = i
  · subst hji
    simp only [Function.update_self] at hj
    exact Or.inr ⟨rc, row, held, hj, hrest⟩
  · simp only [Function.update_of_ne hji] at hj
    exact Or.inl ⟨j, rc, row, held, hj, hrest⟩

/-- The trigger's count leaves an administrator whom no demotion is about to take. -/
theorem safe_read (hwaits : OneWaits c) (hsafe : Safe c) {i : ι} {moved : GovernanceRequest}
    (hread : GovernanceRead (c.proc i) c.store moved) :
    Safe (⟨c.store, Function.update c.proc i moved⟩ : Config ι Db GovernanceRequest) := by
  obtain ⟨witness, hactive, hfree⟩ := hsafe
  by_cases hkept : Doomed (⟨c.store, Function.update c.proc i moved⟩ :
      Config ι Db GovernanceRequest) witness
  · rcases doomed_update hkept with hold | ⟨rc, row, held, rfl, hdemotes, rfl⟩
    · exact absurd hold hfree
    · obtain ⟨htrigger, hcount⟩ := ready_of_read hread hdemotes
      obtain ⟨other, hne, hother⟩ := otherActiveAdmins_ne_zero hcount
      refine ⟨other, hother, fun hdoomed => ?_⟩
      rcases doomed_update hdoomed with ⟨j, rc', row', held', hj, hdemotes', rfl⟩ |
        ⟨rc', row', held', heq, _, htarget⟩
      · have hij : i ≠ j := by
          rintro rfl
          rw [htrigger] at hj
          cases hj
        have hi : Demotes (c.proc i) rc.target [] := by
          rw [htrigger]
          exact ⟨hdemotes, rfl, rfl⟩
        have hj : Demotes (c.proc j) rc'.target [] := by
          rw [hj]
          exact ⟨hdemotes', rfl, rfl⟩
        rcases hwaits i j _ _ _ _ hij hi hj hactive hother with hin | hin
        · simp at hin
        · simp at hin
      · obtain ⟨rfl, _, _⟩ := GovernanceRequest.ready.inj heq
        exact hne htarget.symm
  · exact ⟨witness, hactive, hkept⟩

theorem safe_commit (hcurrent : governanceProtocol.Current (fun _ => True) c) (hsafe : Safe c)
    {i : ι} {ev : GovernanceEvent} {moved : GovernanceRequest} {db' : Db}
    (hcommit : GovernanceCommit (c.proc i) c.store ev moved db')
    (hleaves : LeavesAdmin c (i, some ev)) :
    Safe (⟨db', Function.update c.proc i moved⟩ : Config ι Db GovernanceRequest) := by
  have hknown := hcurrent.known i
  -- Nobody is doomed by a commit.
  have hfree : ∀ user, ¬ Doomed c user →
      ¬ Doomed (⟨db', Function.update c.proc i moved⟩ : Config ι Db GovernanceRequest) user := by
    intro user hnot hdoomed
    rcases doomed_update hdoomed with hold | ⟨rc, row, held, rfl, _⟩
    · exact hnot hold
    · exact not_ready_of_commit hcommit
  obtain ⟨witness, hactive, hnot⟩ := hsafe
  generalize hm : c.proc i = m at hcommit
  rw [hm] at hknown
  cases hcommit with
  | refused => exact ⟨witness, hactive, hfree witness hnot⟩
  | roleChanged rc row held =>
    have hrow := hknown rc.target row rfl
    refine ⟨witness, ?_, hfree witness hnot⟩
    by_cases hne : witness = rc.target
    · subst hne
      obtain ⟨row', hget, hrole, hstatus⟩ := hactive
      rw [hrow, Option.some.injEq] at hget
      subst hget
      have hkeeps : rc.newRole = .admin := by
        by_contra hother
        exact hnot ⟨i, rc, row, held, hm, ⟨hrole, hother⟩, rfl⟩
      exact ⟨_, Table.get_put_self _ _ _, hkeeps, hstatus⟩
    · exact (activeAdmin_congr (Table.get_put_of_ne _ _ hne)).mpr hactive
  | transitioned g target row todo held h =>
    obtain ⟨_, husers⟩ := transition_ok h
    have hother : ∃ user, user ≠ target ∧ ActiveAdmin c.store user ∧ ¬ Doomed c user := by
      by_cases hne : witness = target
      · subst hne
        exact hleaves g witness rfl hactive
      · exact ⟨witness, hne, hactive, hnot⟩
    obtain ⟨user, hne, huser, hsafe⟩ := hother
    have hget : db'.users.get user = c.store.users.get user := by
      rw [husers, Table.get_put_of_ne _ _ hne]
    exact ⟨user, (activeAdmin_congr hget).mpr huser, hfree user hsafe⟩

end System

/-- From a state with an active administrator every run in which no suspension or ban takes
the last one keeps an active administrator in every state. -/
theorem always_an_administrator {ι : Type*} [DecidableEq ι]
    (c : Config ι Db GovernanceRequest) (h : ((governanceSystem ι).guarded LeavesAdmin).Reach c) :
    ∃ user, ActiveAdmin c.store user := by
  have hinv : OneWaits c ∧ Safe c := by
    induction h with
    | init hinit =>
      obtain ⟨⟨user, hactive⟩, hidle⟩ := hinit
      constructor
      · intro i j t u waitsT waitsU _ ht
        have hi := hidle i
        change _ = GovernanceRequest.idle at hi
        rw [hi] at ht
        exact ht.elim
      · refine ⟨user, hactive, ?_⟩
        rintro ⟨j, rc, row, held, hj, _⟩
        have hidle := hidle j
        change _ = GovernanceRequest.idle at hidle
        rw [hidle] at hj
        cases hj
    | step hreach hstep ih =>
      obtain ⟨hwaits, hsafe⟩ := ih
      obtain ⟨hstep, hleaves⟩ := hstep
      have hreach := System.Reach.of_guarded hreach
      have hcurrent := governanceProtocol_sound.current (fun _ _ => trivial) hreach
      have hcurrent' := governanceProtocol_sound.current (fun _ _ => trivial)
        (System.Reach.step hreach hstep)
      refine ⟨oneWaits_step hcurrent hcurrent' hwaits hstep, ?_⟩
      cases hstep with
      | read i m hread hfree => exact safe_read hwaits hsafe hread
      | commit i ev m db' hcommit hfree => exact safe_commit hcurrent hsafe hcommit hleaves
  obtain ⟨user, hactive, _⟩ := hinv.2
  exact ⟨user, hactive⟩

section Example

def suspension : Governance := ⟨⟨1, .admin⟩, .suspend, ['r'], false, none⟩

def administrator : User := ⟨['a'], none, ['a'], none, none, none, .admin, .active⟩

def loneAdmin : Db := { Db.empty with users := Table.empty.put 1 administrator }

def twoAdmins : Db := { Db.empty with users := (Table.empty.put 1 administrator).put 2 administrator }

def suspended (db : Db) (target : UserId) : Db :=
  { db with users := db.users.put target { administrator with status := .suspended } }.appendAudit
    ⟨⟨1, .admin⟩, .userSuspended, target, some ['r'], some (.status .active),
      some (.status .suspended), none⟩

/-- Administrator 1 begins, locks the target and suspends it. -/
theorem suspension_reach {db : Db} {target : UserId} (hadmin : ∃ user, ActiveAdmin db user)
    (hget : db.users.get target = some administrator)
    {G : Config Unit Db GovernanceRequest → Move Unit GovernanceEvent → Prop}
    (hread : ∀ c, G c ((), none))
    (hcommit : G ⟨db, fun _ => .judging suspension target administrator [] []⟩
      ((), some (.transitioned suspension target))) :
    ((governanceSystem Unit).guarded G).Reach
      ⟨suspended db target, fun _ => .governing suspension [] []⟩ := by
  have hupdate : ∀ m m' : GovernanceRequest, Function.update (fun _ : Unit => m) () m' =
      fun _ => m' := by
    intro m m'
    funext u
    rfl
  have hunlocked : ∀ (db : Db) (m m' : GovernanceRequest),
      governanceProtocol.Free (⟨db, fun _ : Unit => m⟩ : Config Unit Db GovernanceRequest) () m' :=
    fun _ _ _ j hj => absurd rfl hj
  have h₀ : ((governanceSystem Unit).guarded G).Reach ⟨db, fun _ => .idle⟩ :=
    .init ⟨hadmin, fun _ => rfl⟩
  have h₁ : ((governanceSystem Unit).guarded G).Reach
      ⟨db, fun _ => .governing suspension [target] []⟩ := by
    refine .step h₀ ⟨?_, hread _⟩
    have hbegin : GovernanceRead .idle db (.governing suspension [target] []) :=
      .begin suspension [target] (by rfl) (fun _ => rfl)
    have hstep := Protocol.Step.read (P := governanceProtocol) ⟨db, fun _ : Unit => .idle⟩ ()
      (.governing suspension [target] []) hbegin (hunlocked _ _ _)
    rwa [hupdate] at hstep
  have h₂ : ((governanceSystem Unit).guarded G).Reach
      ⟨db, fun _ => .judging suspension target administrator [] []⟩ := by
    refine .step h₁ ⟨?_, hread _⟩
    have hown : ¬ (suspension.batch = true ∧ target = suspension.actor.userId) := by
      simp [suspension]
    have hjudge : GovernanceRead (.governing suspension [target] []) db
        (.judging suspension target administrator [] []) :=
      .judge suspension target administrator [] [] hown hget
    have hstep := Protocol.Step.read (P := governanceProtocol)
      ⟨db, fun _ : Unit => .governing suspension [target] []⟩ () _ hjudge (hunlocked _ _ _)
    rwa [hupdate] at hstep
  refine .step h₂ ⟨?_, hcommit⟩
  have hdone : GovernanceCommit (.judging suspension target administrator [] []) db
      (.transitioned suspension target) (.governing suspension [] []) (suspended db target) :=
    .transitioned suspension target administrator [] [] rfl
  have hstep := Protocol.Step.commit (P := governanceProtocol)
    ⟨db, fun _ : Unit => .judging suspension target administrator [] []⟩ () _ _ _ hdone
    (hunlocked _ _ _)
  rwa [hupdate] at hstep

/-- The only administrator suspends itself, and none is left. -/
theorem lone_admin_lost : ¬ ∀ c : Config Unit Db GovernanceRequest,
    (governanceSystem Unit).Reach c → ∃ user, ActiveAdmin c.store user := by
  intro hall
  have hactive : ∃ user, ActiveAdmin loneAdmin user :=
    ⟨1, administrator, by simp [loneAdmin], rfl, rfl⟩
  have hget : loneAdmin.users.get 1 = some administrator := by simp [loneAdmin]
  have hreach := suspension_reach (G := fun _ _ => True) hactive hget (fun _ => trivial) trivial
  obtain ⟨user, row, hget, _, hstatus⟩ := hall _ (System.Reach.of_guarded hreach)
  change (loneAdmin.users.put 1 _).get user = some row at hget
  rcases Table.get_put_eq_some hget with ⟨_, rfl⟩ | ⟨hne, hold⟩
  · cases hstatus
  · change (Table.empty.put 1 administrator).get user = some row at hold
    rw [Table.get_put_of_ne _ _ hne, Table.get_empty] at hold
    cases hold

theorem one_of_two_left : ∃ user, ActiveAdmin (suspended twoAdmins 2) user := by
  have hfirst : ActiveAdmin twoAdmins 1 := ⟨administrator, by decide +kernel, rfl, rfl⟩
  have hget : twoAdmins.users.get 2 = some administrator := by decide +kernel
  refine always_an_administrator (ι := Unit) ⟨suspended twoAdmins 2, _⟩
    (suspension_reach ⟨1, hfirst⟩ hget ?_ ?_)
  · intro c g target hnone
    cases hnone
  · intro g target hsome _
    obtain ⟨_, rfl⟩ := GovernanceEvent.transitioned.inj (Option.some.inj hsome)
    refine ⟨1, by decide, hfirst, ?_⟩
    rintro ⟨j, rc, row, held, hj, _⟩
    cases hj

end Example

end CampusQuest.Identity
