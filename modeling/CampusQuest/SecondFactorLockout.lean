import CampusQuest.PhoneOtp
import CampusQuest.SecondFactor

/-!
The lockout of the second factor. The counter of an account bounds the wrong codes where each
is judged behind a lock check of its own leg and counted, and where the counter is cleared
for a login only. The staff domain does neither, and the first factors clear the counter while
the second one is still owed.
-/

namespace CampusQuest.Identity

open AttemptMeter Locking Runs Tables FactorRequest

/-- The condition on a step. A wrong code is evaluated on a leg that asked for the lock, while
the account has not been locked since and no other request is about to count a wrong code or
to commit the login it cleared the counter for; a wrong code is counted; the counter is
cleared, but for a login that follows, only where no wrong code has been evaluated. -/
def CountsEveryCode {ι : Type*} (c : Config ι FactorStore FactorRequest) (m : Move ι FactorEvent) :
    Prop :=
  match m.2, c.proc m.1 with
  | some (.evaluated user), r =>
    (∃ n, r.checkedAt = some n ∧ (c.store.codes.IsLocked user → lockThreshold ≤ n)) ∧
      ∀ j, ¬ (c.proc j).Owes user ∧ ¬ (c.proc j).Clears user
  | some .abandoned, r | some (.code .abandoned), r =>
    (∀ u, ¬ r.Owes u) ∧ ∀ u, r.Clears u → c.store.evaluated u = 0
  | some (.minted _), r => ∀ u, r.Clears u → c.store.evaluated u = 0
  | some (.code (.reset user)), _ | some (.reset user), _ => c.store.evaluated user = 0
  | _, _ => True

section Counters

variable {svc : CodeService} {s s' : CodeStore} {r r' : CodeRequest} {ev : CodeEvent}

theorem failures_resetFailures {user : Option UserId} {u : UserId} (h : user ≠ some u) :
    (s.resetFailures user).failures u = s.failures u := by
  cases user with
  | none => rfl
  | some user =>
    have hne : u ≠ user := fun heq => h (by rw [heq])
    exact Function.update_of_ne hne ..

/-- A step of a code request lowers the counter of an account only where it clears it. -/
theorem commit_failures (hcommit : CodeCommit svc r s ev r' s') (u : UserId) :
    s.failures u ≤ s'.failures u ∨
      (∃ caller id found, r' = .cleared caller id found ∧ caller.user = some u) ∨
      ev = .reset u := by
  cases hcommit with
  | refused caller => exact Or.inl (recordFailure_failures _ _)
  | charged caller => exact Or.inl (recordFailure_failures _ _)
  | discarded caller => exact Or.inl (recordFailure_failures _ _)
  | failed user => exact Or.inl (recordFailure_failures _ _)
  | cleared caller id found =>
    by_cases hu : caller.user = some u
    · exact Or.inr (Or.inl ⟨caller, id, found, rfl, hu⟩)
    · exact Or.inl (failures_resetFailures hu).ge
  | reset user =>
    by_cases hu : user = u
    · exact Or.inr (Or.inr (by rw [hu]))
    · have hne : some user ≠ some u := fun heq => hu (Option.some.inj heq)
      exact Or.inl (failures_resetFailures hne).ge
  | succeeded caller id found remembered =>
    left
    split <;> exact le_rfl
  | _ => exact Or.inl le_rfl

/-- A code that was accepted leaves the counters alone. -/
theorem succeeded_failures {id : ChallengeId} {outcome : LoginOutcome}
    (hcommit : CodeCommit svc r s (.succeeded id outcome) r' s') : s'.failures = s.failures := by
  cases hcommit with
  | succeeded caller id found remembered => split <;> rfl

/-- A request that has cleared a counter ends, and a code that only registers had no account. -/
theorem commit_of_cleared {caller : Caller} {id : ChallengeId} {found : Bool} {user : UserId}
    (hcommit : CodeCommit svc (.cleared caller id found) s ev r' s')
    (hregister : ∀ id outcome, ev = .succeeded id outcome → outcome = .registerToken)
    (huser : caller.user = some user) : ev = .abandoned := by
  cases hcommit with
  | abandoned => rfl
  | succeeded _ _ _ remembered =>
    have houtcome := hregister _ _ rfl
    cases caller with
    | entry => cases huser
    | student => cases houtcome
    | staff phone user role =>
      unfold Caller.outcome at houtcome
      dsimp only at houtcome
      split at houtcome <;> cases houtcome
    | mail email user role =>
      unfold Caller.outcome at houtcome
      dsimp only at houtcome
      split at houtcome <;> cases houtcome

end Counters

section System

variable {svc : FactorService} {ι : Type*} {c : Config ι FactorStore FactorRequest}

/-- A lock check that was passed read a figure below the threshold; the staff domain makes
none. -/
def FactorRequest.Checked : FactorRequest → Prop
  | password _ _ n | proven _ _ n | recovering _ n _ _ => n < lockThreshold
  | presenting leg _ checked _ =>
    (∀ n, checked = some n → n < lockThreshold) ∧ (leg = .pending .staffMobile → checked = none)
  | _ => True

theorem FactorRequest.Checked.lt {r : FactorRequest} (h : r.Checked) {n : ℕ}
    (hn : r.checkedAt = some n) : n < lockThreshold := by
  cases r with
  | password user row checked => exact Option.some.inj hn ▸ h
  | proven user row checked => exact Option.some.inj hn ▸ h
  | recovering user checked => exact Option.some.inj hn ▸ h
  | presenting leg user checked secret => exact h.1 n hn
  | _ => cases hn

/-- The counter of an account accounts for the wrong codes, but for one that waits, unless it
has been cleared for a login that is about to commit. -/
def CountersMatch (c : Config ι FactorStore FactorRequest) (user : UserId) : Prop :=
  Balanced lockThreshold (c.store.evaluated user) (c.store.codes.failures user)
      (∃ j, (c.proc j).Owes user) ∨ ∃ j, (c.proc j).Clears user

structure LockoutInv (c : Config ι FactorStore FactorRequest) : Prop where
  cap : ∀ user, c.store.evaluated user ≤ lockThreshold
  checked : ∀ i, (c.proc i).Checked
  meter : ∀ user, CountersMatch c user

/-- The code that the condition lets through is evaluated before the lock. -/
theorem LockoutInv.unlocked (h : LockoutInv c) {i : ι} {user : UserId}
    (hcounts : CountsEveryCode c (i, some (.evaluated user))) : ¬ c.store.codes.IsLocked user := by
  obtain ⟨⟨n, hchecked, hsince⟩, _⟩ := hcounts
  intro hlocked
  have hlt := (h.checked i).lt hchecked
  exact absurd (hsince hlocked) (Nat.not_le_of_lt hlt)

/-- The staff domain asks for no lock, so a wrong code that the condition lets through is owed. -/
theorem LockoutInv.afterWrong_owes (h : LockoutInv c) {i : ι} {user : UserId}
    {domain : PendingDomain} {checked : Option ℕ} {secret : Text}
    (hproc : c.proc i = presenting (.pending domain) user checked secret)
    (hcounts : CountsEveryCode c (i, some (.evaluated user))) : (afterWrong user domain).Owes user := by
  cases domain with
  | email => rfl
  | staffMobile =>
    obtain ⟨⟨n, hchecked, _⟩, _⟩ := hcounts
    have hvalid := h.checked i
    dsimp only at hchecked
    rw [hproc] at hvalid hchecked
    have hnone : checked = none := hvalid.2 rfl
    unfold checkedAt at hchecked
    rw [hnone] at hchecked
    cases hchecked

theorem LockoutInv.judged (h : LockoutInv c) {i : ι} {user : UserId}
    (hcounts : CountsEveryCode c (i, some (.evaluated user))) :
    (¬ ∃ j, (c.proc j).Owes user) ∧ c.store.codes.failures user < lockThreshold ∧
      Balanced lockThreshold (c.store.evaluated user) (c.store.codes.failures user)
        (∃ j, (c.proc j).Owes user) := by
  have hlock := h.unlocked hcounts
  obtain ⟨_, hquiet⟩ := hcounts
  refine ⟨fun ⟨j, hj⟩ => (hquiet j).1 hj, Nat.lt_of_not_le hlock, ?_⟩
  rcases h.meter user with hbalanced | ⟨j, hj⟩
  · exact hbalanced
  · exact absurd hj (hquiet j).2

/-- Only a wrong code that comes before the lock is added. -/
theorem LockoutInv.commit_cap (h : LockoutInv c) {i : ι} {ev : FactorEvent}
    {r r' : FactorRequest} {s' : FactorStore} (hcommit : FactorCommit svc r c.store ev r' s')
    (hcounts : CountsEveryCode c (i, some ev)) (u : UserId) : s'.evaluated u ≤ lockThreshold := by
  have hupdated (user : UserId) (n : ℕ) (hn : user = u → n ≤ lockThreshold) :
      Function.update c.store.evaluated user n u ≤ lockThreshold := by
    by_cases hu : u = user
    · subst hu
      rw [Function.update_self]
      exact hn rfl
    · rw [Function.update_of_ne hu]
      exact h.cap u
  have hadded (user : UserId) (hcounts : CountsEveryCode c (i, some (.evaluated user))) :
      (c.store.evaluate user).evaluated u ≤ lockThreshold := by
    refine hupdated user _ fun heq => ?_
    obtain ⟨hnone, hbelow, hbalanced⟩ := h.judged hcounts
    exact hbalanced.judged_lt hnone hbelow
  cases hcommit with
  | wrong domain user => exact hadded user hcounts
  | unrecovered user => exact hadded user hcounts
  | codeLogin caller id found codes user => exact hupdated user 0 fun _ => Nat.zero_le _
  | passwordLogin user => exact hupdated user 0 fun _ => Nat.zero_le _
  | emailLogin user => exact hupdated user 0 fun _ => Nat.zero_le _
  | staffLogin user => exact hupdated user 0 fun _ => Nat.zero_le _
  | lapsed user => exact hupdated user 0 fun _ => Nat.zero_le _
  | login user used =>
    cases used with
    | none => exact hupdated user 0 fun _ => Nat.zero_le _
    | some id => exact hupdated user 0 fun _ => Nat.zero_le _
  | _ => exact h.cap u

variable [DecidableEq ι]

theorem read_checked {r r' : FactorRequest} {s : FactorStore} (hread : FactorRead svc r s r')
    (h : r.Checked) : r'.Checked := by
  cases hread with
  | password identifier user row hfind hlock => exact Nat.lt_of_not_le hlock
  | prove => exact h
  | present user row checked secret hsecret =>
    refine ⟨fun n hn => ?_, fun hleg => (by cases hleg)⟩
    obtain rfl : checked = n := Option.some.inj hn
    exact h
  | unlock user row secret hget hrole hstatus hlock hsecret =>
    refine ⟨fun n hn => ?_, fun hleg => (by cases hleg)⟩
    obtain rfl : s.codes.failures user = n := Option.some.inj hn
    exact Nat.lt_of_not_le hlock
  | complete => exact ⟨fun n hn => (by cases hn), fun _ => rfl⟩
  | recover user checked => exact h.1 checked rfl
  | _ => trivial

/-- A read neither takes on nor drops a duty. -/
theorem read_duties {r r' : FactorRequest} {s : FactorStore} (hread : FactorRead svc r s r')
    (u : UserId) : (r.Owes u ↔ r'.Owes u) ∧ (r.Clears u → r'.Clears u) := by
  cases hread with
  | code q q' hread =>
    refine ⟨Iff.rfl, fun hclears => ?_⟩
    cases hread with
    | _ => exact hclears.elim
  | _ => exact ⟨Iff.rfl, fun hclears => hclears.elim⟩

theorem commit_checked {r r' : FactorRequest} {s s' : FactorStore} {ev : FactorEvent}
    (hcommit : FactorCommit svc r s ev r' s') : r'.Checked := by
  cases hcommit with
  | wrong domain => cases domain <;> trivial
  | _ => trivial

/-- The meter of an account that a move leaves alone. -/
theorem LockoutInv.meter_kept (h : LockoutInv c) {i : ι} {r' : FactorRequest} {s' : FactorStore}
    {u : UserId} (hevaluated : s'.evaluated u = c.store.evaluated u)
    (hfailures : c.store.codes.failures u ≤ s'.codes.failures u)
    (howes : (c.proc i).Owes u → r'.Owes u) (hclears : (c.proc i).Clears u → r'.Clears u) :
    CountersMatch ⟨s', Function.update c.proc i r'⟩ u := by
  unfold CountersMatch
  dsimp only
  rw [hevaluated]
  rcases h.meter u with hbalanced | hcleared
  · exact Or.inl (hbalanced.mono hfailures (exists_update (p := fun r : FactorRequest => r.Owes u) howes))
  · exact Or.inr (exists_update (p := fun r : FactorRequest => r.Clears u) hclears hcleared)

/-- The meter of an account without wrong codes. -/
theorem countersMatch_zero {i : ι} {r' : FactorRequest} {s' : FactorStore} {u : UserId}
    (hevaluated : s'.evaluated u = 0) : CountersMatch ⟨s', Function.update c.proc i r'⟩ u := by
  left
  dsimp only
  rw [hevaluated]
  exact balanced_zero _ _ _

/-- A commit under the condition keeps every meter. -/
theorem LockoutInv.commit_meter (h : LockoutInv c) {i : ι} {ev : FactorEvent}
    {r r' : FactorRequest} {s' : FactorStore} (hproc : c.proc i = r)
    (hcommit : FactorCommit svc r c.store ev r' s') (hcounts : CountsEveryCode c (i, some ev))
    (u : UserId) : CountersMatch ⟨s', Function.update c.proc i r'⟩ u := by
  have hguard := hcounts
  unfold CountsEveryCode at hguard
  dsimp only at hguard
  rw [hproc] at hguard
  have howes (hno : ¬ r.Owes u) : (c.proc i).Owes u → r'.Owes u :=
    fun ho => absurd (hproc ▸ ho) hno
  have hclears (hno : ¬ r.Clears u) : (c.proc i).Clears u → r'.Clears u :=
    fun hc => absurd (hproc ▸ hc) hno
  -- A request that ends without a trace has no duty, or none that matters.
  have hended (hfailures : c.store.codes.failures u ≤ s'.codes.failures u)
      (hevaluated : s'.evaluated u = c.store.evaluated u)
      (hquiet : ¬ r.Owes u) (hzero : r.Clears u → c.store.evaluated u = 0) :
      CountersMatch ⟨s', Function.update c.proc i r'⟩ u := by
    by_cases hc : r.Clears u
    · exact countersMatch_zero (hevaluated.trans (hzero hc))
    · exact h.meter_kept hevaluated hfailures (howes hquiet) (hclears hc)
  have hothers {user : UserId} (hu : user ≠ u) : c.store.codes.failures u ≤
      (c.store.codes.resetFailures (some user)).failures u :=
    (failures_resetFailures fun heq => hu (Option.some.inj heq)).ge
  -- A completed login starts the count of its account anew.
  have hcompleted (user : UserId) (hevaluated : s'.evaluated =
      Function.update c.store.evaluated user 0)
      (hfailures : u ≠ user → c.store.codes.failures u ≤ s'.codes.failures u)
      (hquiet : ¬ r.Owes u) (hduty : ∀ u, r.Clears u → u = user) :
      CountersMatch ⟨s', Function.update c.proc i r'⟩ u := by
    by_cases hu : u = user
    · refine countersMatch_zero ?_
      rw [hevaluated, hu, Function.update_self]
    · refine h.meter_kept ?_ (hfailures hu) (howes hquiet) (hclears fun hc => hu (hduty u hc))
      rw [hevaluated, Function.update_of_ne hu]
  -- A wrong code comes before the lock; the other accounts do not see it.
  have hjudged (user : UserId) (hcounts : CountsEveryCode c (i, some (.evaluated user)))
      (hs : s' = c.store.evaluate user) (hquiet : ¬ r.Owes u) (hduty : ¬ r.Clears u)
      (howing : r'.Owes user) : CountersMatch ⟨s', Function.update c.proc i r'⟩ u := by
    subst hs
    by_cases hu : u = user
    · subst hu
      obtain ⟨hnone, hbelow, hbalanced⟩ := h.judged hcounts
      left
      change Balanced _ (Function.update c.store.evaluated u _ u) _ _
      rw [Function.update_self]
      refine hbalanced.judge hnone hbelow ⟨i, ?_⟩
      dsimp only
      rw [Function.update_self]
      exact howing
    · exact h.meter_kept (Function.update_of_ne hu ..) le_rfl (howes hquiet) (hclears hduty)
  cases hcommit with
  | abandoned => exact hended le_rfl rfl (hguard.1 u) (hguard.2 u)
  | code q q' ev codes hcommit hregister =>
    by_cases hc : (code q).Clears u
    · cases q with
      | cleared caller id found =>
        obtain rfl := commit_of_cleared hcommit hregister hc
        exact countersMatch_zero (hguard.2 u hc)
      | _ => exact hc.elim
    · rcases commit_failures hcommit u with hfailures | ⟨caller, id, found, rfl, huser⟩ | rfl
      · exact h.meter_kept rfl hfailures (howes fun ho => ho) (hclears hc)
      · right
        refine ⟨i, ?_⟩
        dsimp only
        rw [Function.update_self]
        exact huser
      · exact countersMatch_zero hguard
  | codeOwes caller id found codes user digest slots now huser hdevice hcommit =>
    refine hended ?_ rfl (fun ho => ho) (hguard u)
    exact (congrFun (succeeded_failures hcommit) u).ge
  | codeLogin caller id found codes user slots now huser hdevice hcommit =>
    refine hcompleted user rfl (fun _ => ?_) (fun ho => ho) fun u hc => ?_
    · exact (congrFun (succeeded_failures hcommit) u).ge
    · exact Option.some.inj (hc.symm.trans huser)
  | passwordWrong user row checked submitted hmatch =>
    exact h.meter_kept rfl (recordFailure_failures (some user) u) (howes fun ho => ho)
      (hclears fun hc => hc)
  | emptyCode user row checked slots now hdevice =>
    exact h.meter_kept rfl (recordFailure_failures (some user) u) (howes fun ho => ho)
      (hclears fun hc => hc)
  | passwordOwes user row checked digest slots now hdevice hrole =>
    exact h.meter_kept rfl le_rfl (howes fun ho => ho) (hclears fun hc => hc)
  | cookieOwes user digest =>
    exact h.meter_kept rfl le_rfl (howes fun ho => ho) (hclears fun hc => hc)
  | taken domain token user hget =>
    exact h.meter_kept rfl le_rfl (howes fun ho => ho) (hclears fun hc => hc)
  | wrong domain user checked secret submitted now hcode =>
    exact hjudged user hcounts rfl (fun ho => ho) (fun hc => hc) (h.afterWrong_owes hproc hcounts)
  | unrecovered user checked submitted held hmatch =>
    exact hjudged user hcounts rfl (fun ho => ho) (fun hc => hc) rfl
  | recorded user =>
    by_cases hu : u = user
    · subst hu
      rcases h.meter u with hbalanced | hcleared
      · left
        refine hbalanced.record ?_
        change _ ≤ Function.update c.store.codes.failures u _ u
        rw [Function.update_self]
      · exact Or.inr (exists_update (p := fun r : FactorRequest => r.Clears u)
          (hclears fun hc => hc) hcleared)
    · refine h.meter_kept rfl (recordFailure_failures (some user) u) (howes ?_)
        (hclears fun hc => hc)
      exact fun ho => hu (Eq.symm ho)
  | cleared user =>
    by_cases hu : user = u
    · right
      refine ⟨i, ?_⟩
      dsimp only
      rw [Function.update_self]
      exact hu
    · exact h.meter_kept rfl (hothers hu) (howes fun ho => ho) (hclears fun hc => hc)
  | emailLogin user =>
    exact hcompleted user rfl (fun _ => le_rfl) (fun ho => ho) fun u hc => hc.symm
  | staffLogin user =>
    exact hcompleted user rfl (fun _ => le_rfl) (fun ho => ho) fun u hc => hc.elim
  | passwordLogin user row checked slots now hdevice =>
    exact hcompleted user rfl (fun _ => le_rfl) (fun ho => ho) fun u hc => hc.elim
  | login user used held now =>
    have hstore : (c.store.useCode now used).evaluated = c.store.evaluated ∧
        (c.store.useCode now used).codes = c.store.codes := by
      cases used <;> exact ⟨rfl, rfl⟩
    refine hcompleted user ?_ (fun _ => ?_) (fun ho => ho) fun u hc => hc.elim
    · change Function.update (c.store.useCode now used).evaluated user 0 = _
      rw [hstore.1]
    · change _ ≤ (c.store.useCode now used).codes.failures u
      rw [hstore.2]
  | reset user =>
    by_cases hu : user = u
    · subst hu
      exact countersMatch_zero hguard
    · exact h.meter_kept rfl (hothers hu) (howes fun ho => ho) (hclears fun hc => hc)
  | lapsed user hkey =>
    exact hcompleted user rfl (fun hu => hothers (Ne.symm hu)) (fun ho => ho) fun u hc => hc.elim
  | elsewhere credentials recovery devices pending hpending =>
    exact h.meter_kept rfl le_rfl (howes fun ho => ho) (hclears fun hc => hc)

theorem LockoutInv.read (h : LockoutInv c) {i : ι} {r' : FactorRequest}
    (hread : FactorRead svc (c.proc i) c.store r') :
    LockoutInv ⟨c.store, Function.update c.proc i r'⟩ := by
  refine ⟨h.cap, fun j => ?_, fun u => ?_⟩
  · by_cases hj : j = i
    · subst hj
      dsimp only
      rw [Function.update_self]
      exact read_checked hread (h.checked j)
    · dsimp only
      rw [Function.update_of_ne hj]
      exact h.checked j
  · obtain ⟨howes, hclears⟩ := read_duties hread u
    exact h.meter_kept rfl le_rfl howes.mp hclears

theorem LockoutInv.commit (h : LockoutInv c) {i : ι} {ev : FactorEvent} {r' : FactorRequest}
    {s' : FactorStore} (hcommit : FactorCommit svc (c.proc i) c.store ev r' s')
    (hcounts : CountsEveryCode c (i, some ev)) :
    LockoutInv ⟨s', Function.update c.proc i r'⟩ := by
  refine ⟨h.commit_cap hcommit hcounts, fun j => ?_, h.commit_meter rfl hcommit hcounts⟩
  by_cases hj : j = i
  · subst hj
    dsimp only
    rw [Function.update_self]
    exact commit_checked hcommit
  · dsimp only
    rw [Function.update_of_ne hj]
    exact h.checked j

theorem lockoutInv_reach (hc : ((factorSystem svc ι).guarded CountsEveryCode).Reach c) :
    LockoutInv c := by
  induction hc with
  | @init c hinit =>
    have hidle : ∀ i, c.proc i = code .idle := hinit.2
    have hzero : ∀ user, c.store.evaluated user = 0 := hinit.1.evaluated
    refine ⟨fun user => ?_, fun i => ?_, fun user => Or.inl ?_⟩
    · rw [hzero user]
      exact Nat.zero_le _
    · rw [hidle i]
      trivial
    · rw [hzero user]
      exact balanced_zero _ _ _
  | step _ hstep ih =>
    obtain ⟨hstep, hcounts⟩ := hstep
    cases hstep with
    | read i r' hread hfree => exact ih.read hread
    | commit i ev r' s' hcommit hfree => exact ih.commit hcommit hcounts

theorem owing_counts {c' : Config ι FactorStore FactorRequest} {i : ι} {user : UserId}
    {ev : Option FactorEvent} (howes : (c.proc i).Owes user)
    (hstep : ((factorSystem svc ι).guarded CountsEveryCode).step c (i, ev) c') :
    c'.store.codes.failures user = c.store.codes.failures user + 1 := by
  obtain ⟨hstep, hcounts⟩ := hstep
  have hproc : c.proc i = owing user := by
    generalize c.proc i = r at howes
    cases r with
    | owing u => exact congrArg owing howes
    | _ => exact howes.elim
  cases hstep with
  | read _ r' hread hfree =>
    have hread : FactorRead svc (c.proc i) c.store r' := hread
    rw [hproc] at hread
    cases hread
  | commit _ ev r' s' hcommit hfree =>
    have hcommit : FactorCommit svc (c.proc i) c.store ev r' s' := hcommit
    unfold CountsEveryCode at hcounts
    dsimp only at hcounts
    rw [hproc] at hcommit hcounts
    cases hcommit with
    | abandoned => exact absurd rfl (hcounts.1 user)
    | recorded => exact Function.update_self ..

/-- A wrong code that is evaluated under the condition meets an open account, and the request
owes it to the counter. -/
theorem evaluated_unlocked {c' : Config ι FactorStore FactorRequest} {i : ι} {user : UserId}
    (hc : ((factorSystem svc ι).guarded CountsEveryCode).Reach c)
    (hstep : ((factorSystem svc ι).guarded CountsEveryCode).step c
      (i, some (.evaluated user)) c') :
    ¬ c.store.codes.IsLocked user ∧ (c'.proc i).Owes user := by
  have hinv := lockoutInv_reach hc
  obtain ⟨hstep, hcounts⟩ := hstep
  refine ⟨hinv.unlocked hcounts, ?_⟩
  cases hstep with
  | commit _ _ r' s' hcommit hfree =>
    have hcommit : FactorCommit svc (c.proc i) c.store (.evaluated user) r' s' := hcommit
    dsimp only
    rw [Function.update_self]
    generalize hproc : c.proc i = r at hcommit
    cases hcommit with
    | wrong domain _ checked secret submitted now hcode =>
      exact hinv.afterWrong_owes hproc hcounts
    | unrecovered => rfl

end System

/-- The lockout of the second factor: in every run whose steps meet the condition, at most the
threshold of wrong codes is evaluated between two logins of an account within a lock window,
the counter accounts for all of them once no request is about to move it, and each of them
meets an account that is not locked and is counted by the next step of its request. -/
theorem second_factor_locks_out {ι : Type*} [DecidableEq ι] (svc : FactorService)
    (c : Config ι FactorStore FactorRequest)
    (hc : ((factorSystem svc ι).guarded CountsEveryCode).Reach c) (user : UserId) :
    c.store.evaluated user ≤ lockThreshold ∧
    ((∀ j, ¬ (c.proc j).Owes user ∧ ¬ (c.proc j).Clears user) →
      c.store.evaluated user ≤ c.store.codes.failures user) ∧
    (∀ i c', ((factorSystem svc ι).guarded CountsEveryCode).step c
        (i, some (.evaluated user)) c' →
      ¬ c.store.codes.IsLocked user ∧ (c'.proc i).Owes user) ∧
    (∀ i ev c', (c.proc i).Owes user →
      ((factorSystem svc ι).guarded CountsEveryCode).step c (i, ev) c' →
      c'.store.codes.failures user = c.store.codes.failures user + 1) := by
  have hinv := lockoutInv_reach hc
  refine ⟨hinv.cap user, fun hquiet => ?_, fun i c' hstep => evaluated_unlocked hc hstep,
    fun i ev c' howes hstep => owing_counts howes hstep⟩
  rcases hinv.meter user with hbalanced | ⟨j, hj⟩
  · exact hbalanced.settled fun ⟨j, hj⟩ => (hquiet j).1 hj
  · exact absurd hj (hquiet j).2

section Example

def plainFactors : FactorService where
  codes := mailCodes
  verifyPassword submitted stored := submitted = stored
  decryptSecret := id
  verifyTotpCode secret submitted _ := strip submitted = secret
  hashCookie := id
  hashPending := id

def principal : User := ⟨mailbox, some ['p'], ['a'], none, none, none, .admin, .active⟩

/-- An administrator with a confirmed second factor, after so many wrong codes. -/
def mistaken (n : ℕ) : FactorStore where
  codes := ⟨Table.empty.put 1 principal, .empty, fun _ => 0, 0, fun _ => 0, fun _ => 0⟩
  credentials := Table.empty.put 1 ⟨['s'], some 0⟩
  recovery := .empty
  devices := .empty
  pending := .empty
  evaluated := Function.update (fun _ => 0) 1 n

theorem mistaken_initial : (mistaken 0).Initial := by
  refine ⟨⟨rfl, fun _ => rfl, fun _ => rfl⟩, rfl, fun user => ?_⟩
  change Function.update (fun _ => 0) 1 0 user = 0
  rw [Function.update_apply]
  split <;> rfl

theorem mistaken_found (n : ℕ) :
    (mistaken n).codes.findByUsername (plainFactors.codes.lower (strip mailbox)) =
      some (1, principal) := by
  refine Table.find_eq (by rfl) rfl fun k r hget _ => ?_
  rcases Table.get_put_eq_some hget with ⟨heq, _⟩ | ⟨_, hold⟩
  · exact heq
  · rw [Table.get_empty] at hold
    cases hold

theorem mistaken_unlocked (n : ℕ) : ¬ (mistaken n).codes.IsLocked 1 :=
  (by decide : ¬ lockThreshold ≤ 0)

theorem mistaken_evaluate (n : ℕ) : (mistaken n).evaluate 1 = mistaken (n + 1) := by
  unfold FactorStore.evaluate mistaken
  simp only [Function.update_self, Function.update_idem]

theorem idle_locks (k : ChallengeId ⊕ RecoveryId) : ¬ (code .idle).locks k := by
  cases k with
  | inl id => exact fun h => h
  | inr id => exact fun h => h

/-- The password, and a wrong code with the pending credential that it leaves. -/
theorem mistaken_reaches {n : ℕ}
    (h : (factorProtocol plainFactors).Reaches FactorStore.Initial (fun _ _ => True)
      (mistaken n) (code .idle) (code .idle)) :
    (factorProtocol plainFactors).Reaches FactorStore.Initial (fun _ _ => True)
      (mistaken (n + 1)) (code .idle) (code .idle) := by
  have hentered := h.read_left (.password mailbox 1 principal (mistaken_found n)
    (mistaken_unlocked n)) (fun _ h => h.elim) trivial
  have hproven := hentered.read_left (.prove 1 principal 0 ['p'] (by decide) rfl (by decide))
    (fun _ h => h.elim) trivial
  have hminted := hproven.commit_left (.passwordOwes 1 principal 0 ['t'] [] 0
    (fun ⟨_, hmem, _⟩ => absurd hmem List.not_mem_nil) rfl) (fun k h => absurd h (idle_locks k))
    trivial
  have htaken := hminted.commit_left (.taken .staffMobile ['t'] 1 rfl) (fun _ h => h.elim) trivial
  have hcomplete := htaken.read_left (.complete 1 principal ['s'] rfl rfl rfl) (fun _ h => h.elim)
    trivial
  have hwrong := hcomplete.commit_left (.wrong .staffMobile 1 none ['s'] ['x'] 0 (by decide))
    (fun k h => absurd h (idle_locks k)) trivial
  rw [← mistaken_evaluate]
  exact hwrong

/-- Six times the password and a wrong code: the staff domain has judged six wrong codes, and
the account is not locked. -/
theorem staff_codes_unlocked : ¬ ∀ c : Config Bool FactorStore FactorRequest,
    (factorSystem plainFactors Bool).Reach c → ∀ user, c.store.evaluated user ≤ lockThreshold := by
  intro hall
  have hstart := Protocol.reaches_start (P := factorProtocol plainFactors) (G := fun _ _ => True)
    mistaken_initial (m := code .idle) (n := code .idle) rfl rfl
  have hthree := mistaken_reaches (mistaken_reaches (mistaken_reaches hstart))
  have hsix := mistaken_reaches (mistaken_reaches (mistaken_reaches hthree))
  exact absurd (hall _ (System.Reach.of_guarded hsix) 1) (by decide)

/-- A wrong code with the password is evaluated once and waits to be counted. -/
theorem wrong_code_owed : (mistaken 1).evaluated 1 ≤ lockThreshold := by
  have hstart := Protocol.reaches_start (P := factorProtocol plainFactors) (G := CountsEveryCode)
    mistaken_initial (m := code .idle) (n := code .idle) rfl rfl
  have hentered := hstart.read_left (.password mailbox 1 principal (mistaken_found 0)
    (mistaken_unlocked 0)) (fun _ h => h.elim) trivial
  have hproven := hentered.read_left (.prove 1 principal 0 ['p'] (by decide) rfl (by decide))
    (fun _ h => h.elim) trivial
  have hpresenting := hproven.read_left (.present 1 principal 0 ['s'] rfl) (fun _ h => h.elim)
    trivial
  have hrecovering := hpresenting.read_left (.recover 1 0 ['s'] ['x'] 0 (by decide))
    (fun k _ h => (by cases k <;> exact h.elim)) trivial
  have howing := hrecovering.commit_left (.unrecovered 1 0 _ _ fun id hid row hget => (by cases hget))
    (fun _ h => h.elim) ⟨⟨0, rfl, fun hlocked => absurd hlocked (mistaken_unlocked 0)⟩,
      fun j => ⟨fun h => (by cases j <;> cases h), fun h => (by cases j <;> cases h)⟩⟩
  rw [mistaken_evaluate] at howing
  exact (second_factor_locks_out plainFactors _ howing 1).1

end Example

end CampusQuest.Identity
