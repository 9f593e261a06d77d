import CampusQuest.LoginCodes

/-!
Single use of login codes. A verify call uses up its challenge when its DELETE found the row
and its answer commits the transaction; then the row was there until the commit, so no call
had succeeded on it before. Two answers do not commit (the entry token of a phone without an
account and the pending credential of an administrator's phone), and a second DELETE that
finds no row answers all the same.
-/

namespace CampusQuest.Identity

open Guards Locking Runs Tables CodeRequest

/-- The condition on a step: a verify call that answers has deleted the row, and commits. -/
def UsesUp {ι : Type*} (c : Config ι CodeStore CodeRequest) (m : Move ι CodeEvent) : Prop :=
  match m.2, c.proc m.1 with
  | some (.succeeded _ _), CodeRequest.cleared caller _ found =>
    found = true ∧ ∀ remembered, (caller.outcome remembered).2 = true
  | _, _ => True

/-- A challenge that is there has not been answered, and none is answered twice. -/
structure SingleUse (s : CodeStore) : Prop where
  fresh : ∀ id, s.issued ≤ id → s.challenge id = none ∧ s.successes id = 0
  unused : ∀ id, (s.challenge id).isSome → s.successes id = 0
  once : ∀ id, s.successes id ≤ 1

section Steps

variable {svc : CodeService} {s s' : CodeStore}

/-- Only the challenges and the answers matter. -/
theorem SingleUse.congr (h : SingleUse s) (hchallenges : s'.challenges = s.challenges)
    (hissued : s'.issued = s.issued) (hsuccesses : s'.successes = s.successes) : SingleUse s' := by
  have hget : ∀ id, s'.challenge id = s.challenge id := by
    intro id
    unfold CodeStore.challenge
    rw [hchallenges]
  constructor
  · intro id hid
    rw [hget, hsuccesses]
    exact h.fresh id (hissued ▸ hid)
  · intro id hrow
    rw [hsuccesses]
    exact h.unused id (hget id ▸ hrow)
  · rw [hsuccesses]
    exact h.once

theorem SingleUse.recordFailure (h : SingleUse s) (user : Option UserId) :
    SingleUse (s.recordFailure user) := by
  cases user with
  | none => exact h
  | some user => exact h.congr rfl rfl rfl

theorem SingleUse.resetFailures (h : SingleUse s) (user : Option UserId) :
    SingleUse (s.resetFailures user) := by
  cases user with
  | none => exact h
  | some user => exact h.congr rfl rfl rfl

theorem SingleUse.counted (h : SingleUse s) {id : ChallengeId} {current row : LoginChallenge}
    (hrow : s.challenge id = some current) :
    SingleUse { s with challenges := s.challenges.put id row } := by
  have hsome : (s.challenge id).isSome := by
    rw [hrow]
    rfl
  constructor
  · intro k hk
    obtain ⟨hnone, hzero⟩ := h.fresh k hk
    refine ⟨?_, hzero⟩
    change (s.challenges.put id row).get k = none
    rw [challenge_put, if_neg, hnone]
    rintro rfl
    simp [hnone] at hsome
  · intro k hk
    change ((s.challenges.put id row).get k).isSome at hk
    rw [challenge_put] at hk
    by_cases hne : k = id
    · exact hne ▸ h.unused id hsome
    · rw [if_neg hne] at hk
      exact h.unused k hk
  · exact h.once

theorem SingleUse.replaced (h : SingleUse s) (held : Finset ChallengeId) (row : LoginChallenge) :
    SingleUse (s.replaceChallenges held row) := by
  have hget : ∀ k, ((s.replaceChallenges held row).challenge k).isSome →
      k = s.issued ∨ (s.challenge k).isSome := by
    intro k hk
    obtain ⟨found, hfound⟩ := Option.isSome_iff_exists.mp hk
    rcases Table.get_put_eq_some hfound with ⟨heq, _⟩ | ⟨_, hold⟩
    · exact Or.inl heq
    · right
      unfold CodeStore.challenge
      rw [(Table.get_deleteWhere_eq_some.mp hold).1]
      rfl
  constructor
  · intro k hk
    have hlt : s.issued + 1 ≤ k := hk
    obtain ⟨hnone, hzero⟩ := h.fresh k (Nat.le_of_succ_le hlt)
    refine ⟨?_, hzero⟩
    by_contra hsome
    rcases hget k (Option.isSome_iff_ne_none.mpr hsome) with heq | hold
    · exact Nat.not_succ_le_self k (heq ▸ hlt)
    · simp [hnone] at hold
  · intro k hk
    rcases hget k hk with heq | hold
    · subst heq
      exact (h.fresh s.issued le_rfl).2
    · exact h.unused k hold
  · exact h.once

/-- An answer that takes the row away. -/
theorem SingleUse.succeeded (h : SingleUse s) {id : ChallengeId} (hrow : (s.challenge id).isSome) :
    SingleUse { s.deleteChallenge id with
      successes := Function.update s.successes id (s.successes id + 1) } := by
  have hzero := h.unused id hrow
  have hget : ∀ k, ({ s.deleteChallenge id with
      successes := Function.update s.successes id (s.successes id + 1) } : CodeStore).challenge k =
        if k = id then none else s.challenge k := challenge_deleteChallenge id
  constructor
  · intro k hk
    obtain ⟨hnone, hfresh⟩ := h.fresh k hk
    have hne : k ≠ id := by
      rintro rfl
      simp [hnone] at hrow
    rw [hget, if_neg hne]
    exact ⟨hnone, (Function.update_of_ne hne ..).trans hfresh⟩
  · intro k hk
    rw [hget] at hk
    by_cases hne : k = id
    · rw [if_pos hne] at hk
      cases hk
    · rw [if_neg hne] at hk
      exact (Function.update_of_ne hne ..).trans (h.unused k hk)
  · intro k
    by_cases hne : k = id
    · subst hne
      change Function.update s.successes k _ k ≤ 1
      rw [Function.update_self]
      omega
    · change Function.update s.successes id _ k ≤ 1
      rw [Function.update_of_ne hne]
      exact h.once k

/-- A commit under the condition keeps single use. -/
theorem commit_singleUse {ι : Type*} {c : Config ι CodeStore CodeRequest} {i : ι}
    {ev : CodeEvent} {m' : CodeRequest} (h : SingleUse c.store)
    (hknows : (c.proc i).knows c.store) (hcommit : CodeCommit svc (c.proc i) c.store ev m' s')
    (huses : UsesUp c (i, some ev)) : SingleUse s' := by
  unfold UsesUp at huses
  dsimp only at huses
  generalize c.proc i = m at hcommit huses hknows
  cases hcommit with
  | abandoned => exact h
  | refused caller => exact h.recordFailure caller.user
  | mismatch => exact h.congr rfl rfl rfl
  | «match» => exact h
  | counted caller id row current hchannel hrow => exact h.counted hrow
  | charged caller => exact h.recordFailure caller.user
  | discarded caller => exact h.recordFailure caller.user
  | cleared caller => exact h.resetFailures caller.user
  | succeeded caller id found remembered =>
    obtain ⟨hfound, hcommits⟩ := huses
    rw [if_pos ⟨hfound, hcommits remembered⟩]
    exact h.succeeded (hknows hfound)
  | replaced channel address code held now => exact h.replaced held _
  | accounts => exact h.congr rfl rfl rfl
  | reset user => exact h.resetFailures (some user)
  | failed user => exact h.recordFailure (some user)

end Steps

/-- In every run whose answers use up their challenge no challenge is answered twice. -/
theorem login_code_single_use {svc : CodeService} {ι : Type*} [DecidableEq ι]
    (c : Config ι CodeStore CodeRequest) (h : ((codeSystem svc ι).guarded UsesUp).Reach c) :
    ∀ id, c.store.successes id ≤ 1 := by
  have hinv : SingleUse c.store := by
    induction h with
    | @init c hinit =>
      have hnone : ∀ id, c.store.challenge id = none := by
        intro id
        unfold CodeStore.challenge
        rw [hinit.1.challenges, Table.get_empty]
      refine ⟨fun id _ => ⟨hnone id, hinit.1.successes id⟩, fun id _ => hinit.1.successes id,
        fun id => ?_⟩
      rw [hinit.1.successes id]
      omega
    | step hreach hstep ih =>
      obtain ⟨hstep, huses⟩ := hstep
      have hcurrent := (code_sound svc).current (fun _ _ => trivial) hreach.of_guarded
      cases hstep with
      | read => exact ih
      | commit i ev m s' hcommit hfree => exact commit_singleUse ih (hcurrent.known i) hcommit huses
  exact hinv.once

section Example

/-- Codes stand for their own digests, and every text is a phone. -/
def plainCodes : CodeService := ⟨id, id, some⟩

def noCodes (users : Table UserId User) : CodeStore where
  users := users
  challenges := .empty
  failures _ := 0
  issued := 0
  compared _ := 0
  successes _ := 0

def phone : Text := ['5']

def firstCode : LoginChallenge := ⟨.mobile, phone, ['7'], codeTtl, 0, 0⟩

def coded (users : Table UserId User) : CodeStore := (noCodes users).replaceChallenges ∅ firstCode

variable {G : Config Bool CodeStore CodeRequest → Move Bool CodeEvent → Prop}
  {users : Table UserId User} {caller : Caller} {s : CodeStore}

theorem coded_reaches (hG : ∀ c i ev, (∀ id o, ev ≠ some (.succeeded id o)) → G c (i, ev)) :
    (codeProtocol plainCodes).Reaches CodeStore.Initial G (coded users) idle idle := by
  have hinitial : CodeStore.Initial (noCodes users) := ⟨rfl, fun _ => rfl, fun _ => rfl⟩
  have hstart := Protocol.reaches_start (P := codeProtocol plainCodes) (G := G) hinitial
    (m := idle) (n := idle) rfl rfl
  have hrequest := hstart.read_left (.request .mobile phone)
    (fun _ h => absurd h (Finset.notMem_empty _)) (hG _ _ _ (fun _ _ h => (by cases h)))
  exact hrequest.commit_left (.replaced .mobile phone ['7'] ∅ 0) (fun _ h => h.elim)
    (hG _ _ _ (fun _ _ h => (by cases h)))

theorem newest_coded (hrow : s.challenges = (coded users).challenges)
    (hchannel : caller.channel = .mobile) (haddress : caller.address = phone) :
    s.newest caller = some (0, firstCode) := by
  unfold CodeStore.newest
  rw [hrow]
  refine Table.head_scan_eq (by rfl) ⟨hchannel.symm, haddress.symm⟩ fun k r hget _ => ?_
  rcases Table.get_put_eq_some hget with ⟨heq, _⟩ | ⟨_, hold⟩
  · exact heq
  · have hempty := (Table.get_deleteWhere_eq_some.mp hold).1
    change Table.empty.get k = some r at hempty
    rw [Table.get_empty] at hempty
    cases hempty

def afterAnswer (caller : Caller) (s : CodeStore) : CodeStore :=
  { (if true = true ∧ (caller.outcome false).2 = true then
      (s.resetFailures caller.user).deleteChallenge 0 else s.resetFailures caller.user) with
    successes := Function.update (s.resetFailures caller.user).successes 0
      ((s.resetFailures caller.user).successes 0 + 1) }

/-- One verify call with the right code, to its answer. -/
theorem verify_reaches {door : Door}
    (h : (codeProtocol plainCodes).Reaches CodeStore.Initial G s idle idle)
    (hG : ∀ c i ev, (∀ id o, ev ≠ some (.succeeded id o)) → G c (i, ev))
    (hrow : s.challenges = (coded users).challenges) (hdoor : s.dispatch plainCodes phone = some door)
    (hcaller : s.gate door = some caller) (hchannel : caller.channel = .mobile)
    (haddress : caller.address = phone)
    (hanswer : G ⟨s.resetFailures caller.user, pair (CodeRequest.cleared caller 0 true) idle⟩
      (false, some (.succeeded 0 (caller.outcome false).1))) :
    (codeProtocol plainCodes).Reaches CodeStore.Initial G (afterAnswer caller s) idle idle := by
  have hquiet : ∀ id o, (none : Option CodeEvent) ≠ some (.succeeded id o) :=
    fun _ _ h => (by cases h)
  have hdispatched := h.read_left (.dispatch phone door hdoor) (fun _ h => h.elim) (hG _ _ _ hquiet)
  have hadmitted := hdispatched.read_left (.gate door caller hcaller) (fun _ h => h.elim)
    (hG _ _ _ hquiet)
  have hloaded := hadmitted.read_left
    (.load caller 0 firstCode 0 (newest_coded hrow hchannel haddress) (by decide))
    (fun _ h => h.elim) (hG _ _ _ hquiet)
  have hmatched := hloaded.commit_left (.match caller 0 firstCode ['7'] (by decide))
    (fun _ h => h.elim) (hG _ _ _ (fun _ _ h => (by cases h)))
  have hdeleted := hmatched.read_left (.delete caller 0) (fun _ _ h => h.elim) (hG _ _ _ hquiet)
  have hfound : (s.challenge 0).isSome = true := by
    unfold CodeStore.challenge
    rw [hrow]
    rfl
  rw [hfound] at hdeleted
  have hcleared := hdeleted.commit_left (.cleared caller 0 true) (fun _ _ h => h.elim)
    (hG _ _ _ (fun _ _ h => (by cases h)))
  exact hcleared.commit_left (.succeeded caller 0 true false) (fun _ h => h.elim) hanswer

/-- A phone without an account: each verify call hands out an entry token and leaves the
challenge in place. -/
theorem entry_code_used_twice : ¬ ∀ c : Config Bool CodeStore CodeRequest,
    (codeSystem plainCodes Bool).Reach c → ∀ id, c.store.successes id ≤ 1 := by
  intro hall
  have hG : ∀ (c : Config Bool CodeStore CodeRequest) (i : Bool) (ev : Option CodeEvent),
      (∀ id o, ev ≠ some (.succeeded id o)) → True := fun _ _ _ _ => trivial
  have hnone (s : CodeStore) (hs : s.users = .empty) (p : UserId → User → Prop)
      [∀ k r, Decidable (p k r)] : s.users.find p = none := by
    refine Table.find_eq_none fun k r hget => ?_
    rw [hs, Table.get_empty] at hget
    cases hget
  have hdoor (s : CodeStore) (hs : s.users = .empty) :
      s.dispatch plainCodes phone = some (.mobileCode phone) := by
    have hphone : s.findByPhone phone = none := hnone s hs _
    have hname : s.findByUsername phone = none := hnone s hs _
    have hstrip : strip phone = phone := by decide
    unfold CodeStore.dispatch
    simp only [hstrip, plainCodes, hphone, hname]
    rfl
  have hgate (s : CodeStore) (hs : s.users = .empty) :
      s.gate (.mobileCode phone) = some (.entry phone) := by
    unfold CodeStore.gate
    have hphone : s.findByPhone phone = none := hnone s hs _
    dsimp only
    rw [hphone]
  have hcoded : (codeProtocol plainCodes).Reaches CodeStore.Initial (fun _ _ => True)
      (coded .empty) idle idle := coded_reaches hG
  have hfirst := verify_reaches hcoded hG rfl (hdoor _ rfl) (hgate _ rfl) rfl rfl trivial
  have hsecond := verify_reaches hfirst hG rfl (hdoor _ rfl) (hgate _ rfl) rfl rfl trivial
  have htwice := hall _ (System.Reach.of_guarded hsecond) 0
  exact absurd htwice (by decide)

def phoned : User := ⟨['s'], some ['p'], ['s'], some phone, none, none, .student, .active⟩

/-- The code of a student's phone opens a session and is gone. -/
theorem student_code_used_once :
    (afterAnswer (.student phone 1) (coded (Table.empty.put 1 phoned))).successes 0 ≤ 1 := by
  have hG : ∀ (c : Config Bool CodeStore CodeRequest) (i : Bool) (ev : Option CodeEvent),
      (∀ id o, ev ≠ some (.succeeded id o)) → UsesUp c (i, ev) := by
    intro c i ev hev
    unfold UsesUp
    split
    next heq _ => exact absurd heq (hev _ _)
    next => trivial
  have hphone : (coded (Table.empty.put 1 phoned)).findByPhone phone = some (1, phoned) := by
    refine Table.find_eq (by rfl) rfl fun k r hget _ => ?_
    rcases Table.get_put_eq_some hget with ⟨heq, _⟩ | ⟨_, hold⟩
    · exact heq
    · rw [Table.get_empty] at hold
      cases hold
  have hdoor : (coded (Table.empty.put 1 phoned)).dispatch plainCodes phone =
      some (.mobileCode phone) := by
    have hstrip : strip phone = phone := by decide
    unfold CodeStore.dispatch
    simp only [hstrip, plainCodes, hphone]
    rfl
  have hgate : (coded (Table.empty.put 1 phoned)).gate (.mobileCode phone) =
      some (.student phone 1) := by
    unfold CodeStore.gate
    dsimp only
    rw [hphone]
    rfl
  have hanswered := verify_reaches (G := UsesUp) (coded_reaches hG) hG rfl hdoor hgate rfl rfl
    ⟨rfl, fun _ => rfl⟩
  exact login_code_single_use _ hanswered 0

end Example

end CampusQuest.Identity
