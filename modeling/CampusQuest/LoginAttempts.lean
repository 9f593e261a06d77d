import CampusQuest.AttemptMeter
import CampusQuest.SingleUseCodes

/-!
The cap on wrong login codes. By SMS the cap rests on the attempts of the challenge, which a
wrong code raises in a commit of its own; by e-mail the attempts are rolled back with the
request, and only the failure counter of the account stands between a challenge and any
number of guesses. Either figure is read before the code is compared and raised after it.
-/

namespace CampusQuest.Identity

open AttemptMeter Guards Locking Runs Tables CodeRequest

def CodeRequest.Owes : CodeRequest → ChallengeId → Prop
  | mismatched _ k _, id | updating _ k _, id => k = id
  | _, _ => False

/-- The counter has been cleared and the commit that deletes the e-mail challenge is to come. -/
def CodeRequest.Consumes (m : CodeRequest) (id : ChallengeId) : Prop :=
  ∃ caller, m = CodeRequest.cleared caller id true ∧ caller.channel = .email

def CodeStore.figure (s : CodeStore) (row : LoginChallenge) : ℕ :=
  match row.channel with
  | .mobile => row.attempts
  | .email =>
    match s.findByUsername row.address with
    | some (user, _) => s.failures user
    | none => 0

/-- Clearing the counter of the account forgets no wrong code that an e-mail challenge has
seen. -/
def CodeStore.Clearable (s : CodeStore) (user : Option UserId) (except : ChallengeId → Prop) :
    Prop :=
  ∀ u k row account, user = some u → s.challenge k = some row → row.channel = .email →
    s.findByUsername row.address = some (u, account) → ¬ except k → s.compared k = 0

/-- The condition on a step. A code is compared while the challenge is as it was loaded, its
figure is below the cap and no other request is about to record a wrong code or to consume
the challenge; a wrong code is recorded; the counter of an account is cleared only where that
forgets no wrong code. -/
def JudgesCurrent {ι : Type*} (c : Config ι CodeStore CodeRequest) (m : Move ι CodeEvent) : Prop :=
  match m.2, c.proc m.1 with
  | some (.compared id _), loaded _ _ row =>
    (∃ current, c.store.challenge id = some current ∧ current.attempts = row.attempts ∧
      c.store.figure current < maxVerifyAttempts) ∧
      ∀ j, ¬ (c.proc j).Owes id ∧ ¬ (c.proc j).Consumes id
  | some .abandoned, mismatched _ _ _ => False
  | some .abandoned, updating _ _ _ => False
  | some .abandoned, CodeRequest.cleared caller id found =>
    caller.channel = .email → found = true → c.store.compared id = 0
  | some (.cleared id), deleted caller _ found =>
    c.store.Clearable caller.user fun k => found = true ∧ k = id
  | some (.reset user), _ => c.store.Clearable (some user) fun _ => False
  | _, _ => True

section Figures

variable {svc : CodeService} {s s' : CodeStore} {m m' : CodeRequest} {ev : CodeEvent}
  {row row' : LoginChallenge}

/-- Every account that can be found by its username still can be. -/
def CodeStore.KeepsNames (s s' : CodeStore) : Prop :=
  ∀ username id user, s.findByUsername username = some (id, user) →
    ∃ user', s'.findByUsername username = some (id, user')

theorem CodeStore.KeepsNames.of_users (h : s'.users = s.users) : s.KeepsNames s' := by
  intro username id user hfind
  unfold findByUsername at hfind ⊢
  rw [h]
  exact ⟨user, hfind⟩

theorem figure_mono (hnames : s.KeepsNames s') (hfailures : ∀ u, s.failures u ≤ s'.failures u)
    (hchannel : row'.channel = row.channel) (haddress : row'.address = row.address)
    (hattempts : row.attempts ≤ row'.attempts) : s.figure row ≤ s'.figure row' := by
  unfold CodeStore.figure
  rw [hchannel, haddress]
  cases row.channel with
  | mobile => exact hattempts
  | email =>
    cases hfind : s.findByUsername row.address with
    | none => exact Nat.zero_le _
    | some found =>
      obtain ⟨id, user⟩ := found
      obtain ⟨user', hfind'⟩ := hnames _ _ _ hfind
      rw [hfind']
      exact hfailures id

theorem recordFailure_names (user : Option UserId) : s.KeepsNames (s.recordFailure user) :=
  .of_users (by cases user <;> rfl)

theorem recordFailure_failures (user : Option UserId) (u : UserId) :
    s.failures u ≤ (s.recordFailure user).failures u := by
  cases user with
  | none => exact le_rfl
  | some user =>
    change _ ≤ Function.update s.failures user _ u
    by_cases h : u = user
    · subst h
      rw [Function.update_self]
      omega
    · rw [Function.update_of_ne h]

theorem figure_recordFailure (user : Option UserId) (row : LoginChallenge) :
    s.figure row ≤ (s.recordFailure user).figure row :=
  figure_mono (recordFailure_names user) (recordFailure_failures user) rfl rfl le_rfl

/-- Clearing a counter lowers the figure of e-mail challenges of that account only. -/
theorem figure_resetFailures (user : Option UserId) (row : LoginChallenge) :
    s.figure row ≤ (s.resetFailures user).figure row ∨ row.channel = .email ∧
      ∃ u account, user = some u ∧ s.findByUsername row.address = some (u, account) := by
  cases user with
  | none => exact Or.inl le_rfl
  | some user =>
    unfold CodeStore.figure
    cases hchannel : row.channel with
    | mobile => exact Or.inl le_rfl
    | email =>
      cases hfind : s.findByUsername row.address with
      | none => exact Or.inl (Nat.zero_le _)
      | some found =>
        obtain ⟨u, account⟩ := found
        by_cases hu : u = user
        · exact Or.inr ⟨rfl, u, account, by rw [hu], rfl⟩
        · left
          have hsame : (s.resetFailures (some user)).findByUsername row.address =
              some (u, account) := hfind
          dsimp only
          rw [hsame]
          change _ ≤ Function.update s.failures user 0 u
          rw [Function.update_of_ne hu]

end Figures

section Validity

variable {svc : CodeService} {s s' : CodeStore} {m m' : CodeRequest} {ev : CodeEvent}

def Caller.Named (s : CodeStore) : Caller → Prop
  | mail email user _ => ∃ account, s.findByUsername email = some (user, account)
  | _ => True

structure CodeStore.Has (s : CodeStore) (caller : Caller) (id : ChallengeId) : Prop where
  named : caller.Named s
  issued : id < s.issued
  row : ∀ current, s.challenge id = some current →
    current.channel = caller.channel ∧ current.address = caller.address

/-- What a request remembers of the store: until a wrong code is recorded the attempts stay
as they were loaded. -/
def CodeRequest.Valid (s : CodeStore) : CodeRequest → Prop
  | admitted caller | charging caller => caller.Named s
  | loaded caller id _ | matched caller id | deleted caller id _ | cleared caller id _ =>
    s.Has caller id
  | mismatched caller id row | updating caller id row => s.Has caller id ∧
    ∀ current, s.challenge id = some current → current.attempts = row.attempts
  | _ => True

def CodeStore.Unissued (s : CodeStore) : Prop :=
  ∀ id, s.issued ≤ id → s.challenge id = none ∧ s.compared id = 0

theorem gate_named {door : Door} {caller : Caller} (h : s.gate door = some caller) :
    caller.Named s := by
  cases door with
  | emailCode email =>
    obtain ⟨⟨id, user⟩, hfind, h⟩ := Option.bind_eq_some_iff.mp h
    dsimp only at h
    split at h
    · cases h
    · rw [Option.some.injEq] at h
      rw [← h]
      exact ⟨user, hfind⟩
  | mobileCode phone =>
    unfold CodeStore.gate at h
    dsimp only at h
    split at h
    · rw [Option.some.injEq] at h
      rw [← h]
      trivial
    · split at h
      · cases h
      · rw [Option.some.injEq] at h
        rw [← h]
        trivial
  | staffMobileCode phone =>
    obtain ⟨⟨id, user⟩, _, h⟩ := Option.bind_eq_some_iff.mp h
    dsimp only at h
    split at h
    · cases h
    · rw [Option.some.injEq] at h
      rw [← h]
      trivial

theorem read_valid (hfresh : s.Unissued) (hvalid : m.Valid s) (hread : CodeRead svc m s m') :
    m'.Valid s := by
  cases hread with
  | dispatch => trivial
  | gate door caller hcaller => exact gate_named hcaller
  | load caller id row now hnewest hlive =>
    obtain ⟨hget, hchannel, haddress⟩ := Table.mem_scan.mp (List.mem_of_mem_head? hnewest)
    refine ⟨hvalid, ?_, fun current hcurrent => ?_⟩
    · by_contra hge
      have hnone := (hfresh id (Nat.le_of_not_lt hge)).1
      unfold CodeStore.challenge at hnone
      rw [hget] at hnone
      cases hnone
    · unfold CodeStore.challenge at hcurrent
      rw [hget, Option.some.injEq] at hcurrent
      rw [← hcurrent]
      exact ⟨hchannel, haddress⟩
  | update => exact hvalid
  | delete => exact hvalid
  | request => trivial
  | supersede => trivial

/-- A row that is there after a commit is new or was there; its attempts change only at the
hands of a request that holds it for its UPDATE. -/
theorem commit_row (hcommit : CodeCommit svc m s ev m' s') {k : ChallengeId}
    {row' : LoginChallenge} (hrow : s'.challenge k = some row') :
    (k = s.issued ∧ s.issued < s'.issued) ∨ ∃ row, s.challenge k = some row ∧ row'.channel = row.channel ∧
      row'.address = row.address ∧ (row'.attempts = row.attempts ∨ m.Owes k) := by
  have hsame (h : s.challenge k = some row') : (k = s.issued ∧ s.issued < s'.issued) ∨
      ∃ row, s.challenge k = some row ∧ row'.channel = row.channel ∧
        row'.address = row.address ∧ (row'.attempts = row.attempts ∨ m.Owes k) :=
    Or.inr ⟨row', h, rfl, rfl, Or.inl rfl⟩
  cases hcommit with
  | counted caller id row current hchannel hget =>
    rcases Table.get_put_eq_some hrow with ⟨rfl, rfl⟩ | ⟨_, hold⟩
    · exact Or.inr ⟨current, hget, rfl, rfl, Or.inr rfl⟩
    · exact hsame hold
  | succeeded caller id found remembered =>
    split at hrow
    · change (s.deleteChallenge id).challenge k = some row' at hrow
      rw [challenge_deleteChallenge] at hrow
      split at hrow
      · cases hrow
      · exact hsame hrow
    · exact hsame hrow
  | replaced channel address code held now =>
    rcases Table.get_put_eq_some hrow with ⟨heq, _⟩ | ⟨_, hold⟩
    · exact Or.inl ⟨heq, Nat.lt_succ_self _⟩
    · exact hsame (Table.get_deleteWhere_eq_some.mp hold).1
  | abandoned => exact hsame hrow
  | mismatch => exact hsame hrow
  | «match» => exact hsame hrow
  | accounts => exact hsame hrow
  | refused | charged | discarded | failed =>
    rw [CodeStore.challenge, recordFailure_challenges] at hrow
    exact hsame hrow
  | cleared | reset =>
    rw [CodeStore.challenge, resetFailures_challenges] at hrow
    exact hsame hrow

theorem commit_names (hcommit : CodeCommit svc m s ev m' s') : s.KeepsNames s' := by
  cases hcommit with
  | refused | charged | discarded | failed => exact recordFailure_names _
  | cleared caller | reset user => exact .of_users (by first | rfl | cases caller.user <;> rfl)
  | succeeded caller id found remembered =>
    refine .of_users ?_
    split <;> rfl
  | accounts users hnames => exact hnames
  | _ => exact .of_users rfl

theorem commit_issued (hcommit : CodeCommit svc m s ev m' s') : s.issued ≤ s'.issued := by
  cases hcommit with
  | refused caller | charged caller | discarded caller | cleared caller =>
    cases caller.user <;> exact le_rfl
  | succeeded caller id found remembered =>
    split <;> exact le_rfl
  | replaced => exact Nat.le_succ _
  | _ => exact le_rfl

theorem Caller.Named.keep {caller : Caller} (h : caller.Named s) (hnames : s.KeepsNames s') :
    caller.Named s' := by
  cases caller with
  | mail email user role =>
    obtain ⟨account, hfind⟩ := h
    exact hnames _ _ _ hfind
  | _ => trivial

theorem CodeStore.Has.commit {caller : Caller} {id : ChallengeId} (h : s.Has caller id)
    (hcommit : CodeCommit svc m s ev m' s') : s'.Has caller id := by
  refine ⟨h.named.keep (commit_names hcommit), h.issued.trans_le (commit_issued hcommit),
    fun current hcurrent => ?_⟩
  rcases commit_row hcommit hcurrent with ⟨heq, _⟩ | ⟨row, hrow, hchannel, haddress, _⟩
  · exact absurd h.issued (heq ▸ lt_irrefl _)
  · rw [hchannel, haddress]
    exact h.row row hrow

/-- A commit keeps what the other requests remember. -/
theorem CodeRequest.Valid.commit {o : CodeRequest} (h : o.Valid s)
    (hcommit : CodeCommit svc m s ev m' s') (howes : ∀ id, m.Owes id → ¬ o.Owes id) :
    o.Valid s' := by
  have hattempts {caller : Caller} {id : ChallengeId} {row : LoginChallenge} (hhas : s.Has caller id)
      (hkept : ∀ current, s.challenge id = some current → current.attempts = row.attempts)
      (ho : o.Owes id) (current : LoginChallenge) (hcurrent : s'.challenge id = some current) :
      current.attempts = row.attempts := by
    rcases commit_row hcommit hcurrent with ⟨heq, _⟩ | ⟨old, hold, _, _, hsame | hm⟩
    · exact absurd hhas.issued (heq ▸ lt_irrefl _)
    · exact hsame.trans (hkept old hold)
    · exact absurd ho (howes id hm)
  cases o with
  | admitted caller => exact Caller.Named.keep h (commit_names hcommit)
  | charging caller => exact Caller.Named.keep h (commit_names hcommit)
  | loaded caller id row => exact CodeStore.Has.commit h hcommit
  | matched caller id => exact CodeStore.Has.commit h hcommit
  | deleted caller id found => exact CodeStore.Has.commit h hcommit
  | cleared caller id found => exact CodeStore.Has.commit h hcommit
  | mismatched caller id row => exact ⟨h.1.commit hcommit, hattempts h.1 h.2 rfl⟩
  | updating caller id row => exact ⟨h.1.commit hcommit, hattempts h.1 h.2 rfl⟩
  | idle => trivial
  | dispatched => trivial
  | replacing => trivial

/-- A commit leaves its own request with what it remembers. -/
theorem commit_valid (h : m.Valid s) (hcommit : CodeCommit svc m s ev m' s')
    (hcurrent : ∀ caller id row, m = loaded caller id row → ev = .compared id false →
      ∀ current, s.challenge id = some current → current.attempts = row.attempts) :
    m'.Valid s' := by
  cases hcommit with
  | mismatch caller id row code hcode =>
    exact ⟨⟨h.named, h.issued, h.row⟩, hcurrent caller id row rfl rfl⟩
  | «match» caller id row code hcode => exact h
  | counted caller id row current hchannel hrow =>
    exact Caller.Named.keep h.1.named (.of_users rfl)
  | cleared caller id found =>
    have hcleared : CodeCommit svc (deleted caller id found) s (.cleared id)
        (CodeRequest.cleared caller id found) (s.resetFailures caller.user) :=
      .cleared caller id found
    exact CodeStore.Has.commit h hcleared
  | _ => trivial

theorem commit_unissued (h : s.Unissued) (hvalid : m.Valid s)
    (hcommit : CodeCommit svc m s ev m' s') : s'.Unissued := by
  intro id hid
  have hbelow : s.issued ≤ id := (commit_issued hcommit).trans hid
  obtain ⟨hnone, hzero⟩ := h id hbelow
  constructor
  · by_contra hsome
    obtain ⟨row', hrow'⟩ := Option.ne_none_iff_exists'.mp hsome
    rcases commit_row hcommit hrow' with ⟨heq, hlt⟩ | ⟨row, hrow, _⟩
    · exact absurd (hlt.trans_le hid) (heq ▸ lt_irrefl _)
    · rw [hnone] at hrow
      cases hrow
  · cases hcommit with
    | mismatch caller k row code hcode =>
      have hne : id ≠ k := by
        rintro rfl
        exact absurd hvalid.issued (Nat.not_lt_of_le hbelow)
      exact (Function.update_of_ne hne ..).trans hzero
    | refused caller | charged caller | discarded caller | cleared caller =>
      cases caller.user <;> exact hzero
    | succeeded caller k found remembered =>
      split <;> exact hzero
    | _ => exact hzero

end Validity

section System

variable {svc : CodeService} {ι : Type*} {c : Config ι CodeStore CodeRequest}

/-- The figure of a challenge accounts for the wrong codes, but for one that waits, unless the
challenge is being consumed. -/
def Metered (c : Config ι CodeStore CodeRequest) (id : ChallengeId) (row : LoginChallenge) : Prop :=
  Balanced maxVerifyAttempts (c.store.compared id) (c.store.figure row)
      (∃ j, (c.proc j).Owes id) ∨ ∃ j, (c.proc j).Consumes id

structure AttemptsInv (c : Config ι CodeStore CodeRequest) : Prop where
  unissued : c.store.Unissued
  cap : ∀ id, c.store.compared id ≤ maxVerifyAttempts
  valid : ∀ i, (c.proc i).Valid c.store
  owner : ∀ i j id, (c.proc i).Owes id → (c.proc j).Owes id → i = j
  meter : ∀ id row, c.store.challenge id = some row → Metered c id row

/-- A code that is compared under the condition comes before the cap. -/
theorem AttemptsInv.judged (h : AttemptsInv c) {i : ι} {caller : Caller} {id : ChallengeId}
    {row : LoginChallenge} {right : Bool} (hproc : c.proc i = loaded caller id row)
    (hcurrent : JudgesCurrent c (i, some (.compared id right))) :
    ∃ current, c.store.challenge id = some current ∧ current.attempts = row.attempts ∧
      c.store.figure current < maxVerifyAttempts ∧ (¬ ∃ j, (c.proc j).Owes id) ∧
      Balanced maxVerifyAttempts (c.store.compared id) (c.store.figure current)
        (∃ j, (c.proc j).Owes id) := by
  unfold JudgesCurrent at hcurrent
  dsimp only at hcurrent
  rw [hproc] at hcurrent
  obtain ⟨⟨current, hget, hattempts, hbelow⟩, hquiet⟩ := hcurrent
  have hnone : ¬ ∃ j, (c.proc j).Owes id := fun ⟨j, hj⟩ => (hquiet j).1 hj
  refine ⟨current, hget, hattempts, hbelow, hnone, ?_⟩
  rcases h.meter id current hget with hbalanced | ⟨j, hj⟩
  · exact hbalanced
  · exact absurd hj (hquiet j).2

theorem AttemptsInv.judged_lt (h : AttemptsInv c) {i : ι} {caller : Caller} {id : ChallengeId}
    {row : LoginChallenge} {right : Bool} (hproc : c.proc i = loaded caller id row)
    (hcurrent : JudgesCurrent c (i, some (.compared id right))) :
    c.store.compared id < maxVerifyAttempts := by
  obtain ⟨current, _, _, hbelow, hnone, hbalanced⟩ := h.judged hproc hcurrent
  exact hbalanced.judged_lt hnone hbelow

variable [DecidableEq ι]

/-- The meter of a challenge that a move leaves alone. -/
theorem AttemptsInv.meter_kept (h : AttemptsInv c) {i : ι} {m' : CodeRequest} {s' : CodeStore}
    {k : ChallengeId} {row row' : LoginChallenge} (hrow : c.store.challenge k = some row)
    (hcompared : s'.compared k = c.store.compared k)
    (hfigure : c.store.figure row ≤ s'.figure row')
    (howes : (c.proc i).Owes k → m'.Owes k) (hconsumes : (c.proc i).Consumes k → m'.Consumes k) :
    Metered ⟨s', Function.update c.proc i m'⟩ k row' := by
  unfold Metered
  dsimp only
  rw [hcompared]
  rcases h.meter k row hrow with hbalanced | hconsumed
  · exact Or.inl (hbalanced.mono hfigure (exists_update (p := fun m : CodeRequest => m.Owes k) howes))
  · exact Or.inr (exists_update (p := fun m : CodeRequest => m.Consumes k) hconsumes hconsumed)

theorem AttemptsInv.meter_recorded (h : AttemptsInv c) {i : ι} {m' : CodeRequest} {s' : CodeStore}
    {k : ChallengeId} {row row' : LoginChallenge} (hrow : c.store.challenge k = some row)
    (hcompared : s'.compared k = c.store.compared k)
    (hfigure : c.store.figure row + 1 ≤ s'.figure row')
    (hconsumes : (c.proc i).Consumes k → m'.Consumes k) :
    Metered ⟨s', Function.update c.proc i m'⟩ k row' := by
  unfold Metered
  dsimp only
  rw [hcompared]
  rcases h.meter k row hrow with hbalanced | hconsumed
  · exact Or.inl (hbalanced.record hfigure)
  · exact Or.inr (exists_update (p := fun m : CodeRequest => m.Consumes k) hconsumes hconsumed)

theorem AttemptsInv.read (h : AttemptsInv c) {i : ι} {m' : CodeRequest}
    (hread : CodeRead svc (c.proc i) c.store m') :
    AttemptsInv ⟨c.store, Function.update c.proc i m'⟩ := by
  have howes : ∀ id, (c.proc i).Owes id ↔ m'.Owes id := by
    intro id
    generalize c.proc i = m at hread
    cases hread <;> exact Iff.rfl
  have hconsumes : ∀ id, (c.proc i).Consumes id → m'.Consumes id := by
    rintro id ⟨caller, hm, _⟩
    rw [hm] at hread
    cases hread
  refine ⟨h.unissued, h.cap, fun j => ?_, fun j j' id hj hj' => ?_, fun id row hrow => ?_⟩
  · by_cases hj : j = i
    · subst hj
      dsimp only
      rw [Function.update_self]
      exact read_valid h.unissued (h.valid j) hread
    · dsimp only
      rw [Function.update_of_ne hj]
      exact h.valid j
  · have hback (j : ι) (hj : (Function.update c.proc i m' j).Owes id) : (c.proc j).Owes id := by
      by_cases hji : j = i
      · subst hji
        rw [Function.update_self] at hj
        exact (howes id).mpr hj
      · rwa [Function.update_of_ne hji] at hj
    exact h.owner j j' id (hback j hj) (hback j' hj')
  · exact h.meter_kept hrow rfl le_rfl (howes id).mp (hconsumes id)

/-- Clearing a counter under the condition keeps every meter. -/
theorem AttemptsInv.meter_cleared (h : AttemptsInv c) {i : ι} {m' : CodeRequest}
    {user : Option UserId} {except : ChallengeId → Prop} {k : ChallengeId} {row : LoginChallenge}
    (hclear : c.store.Clearable user except) (hrow : c.store.challenge k = some row)
    (howes : (c.proc i).Owes k → m'.Owes k) (hconsumes : (c.proc i).Consumes k → m'.Consumes k)
    (hexcept : except k → row.channel = .email → m'.Consumes k) :
    Metered ⟨c.store.resetFailures user, Function.update c.proc i m'⟩ k row := by
  have hcompared : (c.store.resetFailures user).compared k = c.store.compared k := by
    cases user <;> rfl
  rcases figure_resetFailures (s := c.store) user row with
    hfigure | ⟨hemail, u, account, huser, hname⟩
  · exact h.meter_kept hrow hcompared hfigure howes hconsumes
  · by_cases hk : except k
    · exact Or.inr ⟨i, by dsimp only; rw [Function.update_self]; exact hexcept hk hemail⟩
    · left
      dsimp only
      rw [hcompared, hclear u k row account huser hrow hemail hname hk]
      exact balanced_zero _ _ _

/-- A commit under the condition keeps every meter. -/
theorem AttemptsInv.commit_meter (h : AttemptsInv c) {i : ι} {ev : CodeEvent} {m m' : CodeRequest}
    {s' : CodeStore} (hproc : c.proc i = m) (hcommit : CodeCommit svc m c.store ev m' s')
    (hcurrent : JudgesCurrent c (i, some ev)) (k : ChallengeId) (row' : LoginChallenge)
    (hrow' : s'.challenge k = some row') :
    Metered ⟨s', Function.update c.proc i m'⟩ k row' := by
  have hvalid := h.valid i
  rw [hproc] at hvalid
  have hguard := hcurrent
  unfold JudgesCurrent at hguard
  dsimp only at hguard
  rw [hproc] at hguard
  have howes (hno : ¬ m.Owes k) : (c.proc i).Owes k → m'.Owes k :=
    fun ho => absurd (hproc ▸ ho) hno
  have hconsumes (hno : ∀ caller, m ≠ CodeRequest.cleared caller k true) :
      (c.proc i).Consumes k → m'.Consumes k := by
    rintro ⟨caller, hm, _⟩
    exact absurd (hproc.symm.trans hm) (hno caller)
  have hrecorded (user : Option UserId) (hs : s' = c.store.recordFailure user)
      (ho : ¬ m.Owes k) (hc : ∀ caller, m ≠ CodeRequest.cleared caller k true) :
      Metered ⟨s', Function.update c.proc i m'⟩ k row' := by
    subst hs
    rw [CodeStore.challenge, recordFailure_challenges] at hrow'
    refine h.meter_kept hrow' ?_ (figure_recordFailure user row') (howes ho) (hconsumes hc)
    cases user <;> rfl
  cases hcommit with
  | abandoned =>
    by_cases hc : m.Consumes k
    · obtain ⟨caller, rfl, hemail⟩ := hc
      left
      dsimp only
      rw [hguard hemail rfl]
      exact balanced_zero _ _ _
    · have ho : ¬ m.Owes k := by
        cases m with
        | mismatched => exact hguard.elim
        | updating => exact hguard.elim
        | _ => exact fun ho => ho
      exact h.meter_kept hrow' rfl le_rfl (howes ho) fun hm => absurd (hproc ▸ hm) hc
  | refused caller => exact hrecorded _ rfl (fun ho => ho) (fun _ heq => (by cases heq))
  | charged caller => exact hrecorded _ rfl (fun ho => ho) (fun _ heq => (by cases heq))
  | failed user => exact hrecorded _ rfl (fun ho => ho) (fun _ heq => (by cases heq))
  | mismatch caller id row code hcode =>
    by_cases hk : k = id
    · subst hk
      obtain ⟨current, hget, _, hbelow, hnone, hbalanced⟩ := h.judged hproc hcurrent
      obtain rfl : current = row' := Option.some.inj (hget.symm.trans hrow')
      left
      dsimp only
      rw [Function.update_self]
      refine hbalanced.judge hnone hbelow ⟨i, ?_⟩
      rw [Function.update_self]
      rfl
    · exact h.meter_kept hrow' (Function.update_of_ne hk ..) le_rfl (howes fun ho => ho)
        (hconsumes fun _ heq => (by cases heq))
  | «match» caller id row code hcode =>
    exact h.meter_kept hrow' rfl le_rfl (howes fun ho => ho)
      (hconsumes fun _ heq => (by cases heq))
  | counted caller id row current hchannel hget =>
    rcases Table.get_put_eq_some hrow' with ⟨rfl, rfl⟩ | ⟨hne, hold⟩
    · refine h.meter_recorded hget rfl ?_ (hconsumes fun _ heq => (by cases heq))
      have hmobile : current.channel = .mobile := (hvalid.1.row current hget).1.trans hchannel
      have hattempts := hvalid.2 current hget
      unfold CodeStore.figure
      dsimp only
      rw [hmobile]
      exact Nat.succ_le_succ hattempts.le
    · refine h.meter_kept hold rfl le_rfl (howes ?_) (hconsumes fun _ heq => (by cases heq))
      exact fun ho => hne (Eq.symm ho)
  | discarded caller id row hchannel =>
    by_cases hk : k = id
    · subst hk
      have hget := hrow'
      rw [CodeStore.challenge, recordFailure_challenges] at hget
      obtain ⟨hemail, haddress⟩ := hvalid.1.row row' hget
      cases caller with
      | mail email user role =>
        obtain ⟨account, hname⟩ := hvalid.1.named
        refine h.meter_recorded hget rfl ?_ (hconsumes fun _ heq => (by cases heq))
        have hfound : c.store.findByUsername row'.address = some (user, account) := haddress ▸ hname
        have hfound' : (c.store.recordFailure (some user)).findByUsername row'.address =
            some (user, account) := hfound
        unfold CodeStore.figure
        rw [hemail]
        change (match c.store.findByUsername row'.address with
          | some (user, _) => c.store.failures user
          | none => 0) + 1 ≤ match (c.store.recordFailure (some user)).findByUsername row'.address with
          | some (u, _) => (c.store.recordFailure (some user)).failures u
          | none => 0
        rw [hfound', hfound]
        change c.store.failures user + 1 ≤ Function.update c.store.failures user _ user
        rw [Function.update_self]
      | _ => cases hchannel
    · refine hrecorded _ rfl ?_ (fun _ heq => (by cases heq))
      exact fun ho => hk (Eq.symm ho)
  | cleared caller id found =>
    rw [CodeStore.challenge, resetFailures_challenges] at hrow'
    refine h.meter_cleared hguard hrow' (howes fun ho => ho)
      (hconsumes fun _ heq => (by cases heq)) ?_
    rintro ⟨rfl, rfl⟩ hemail
    exact ⟨caller, rfl, (hvalid.row row' hrow').1.symm.trans hemail⟩
  | succeeded caller id found remembered =>
    have hkept : c.store.challenge k = some row' ∧
        ¬ (k = id ∧ found = true ∧ (caller.outcome remembered).2 = true) := by
      split at hrow'
      next hused =>
        change (c.store.deleteChallenge id).challenge k = some row' at hrow'
        rw [challenge_deleteChallenge] at hrow'
        by_cases hk : k = id
        · rw [if_pos hk] at hrow'
          cases hrow'
        · rw [if_neg hk] at hrow'
          exact ⟨hrow', fun hall => hk hall.1⟩
      next hused => exact ⟨hrow', fun hall => hused hall.2⟩
    obtain ⟨hget, hunused⟩ := hkept
    have hno : ∀ caller', CodeRequest.cleared caller id found = CodeRequest.cleared caller' k true →
        caller'.channel ≠ .email := by
      intro caller' heq hemail
      obtain ⟨rfl, rfl, rfl⟩ := CodeRequest.cleared.inj heq
      refine hunused ⟨rfl, rfl, ?_⟩
      cases caller with
      | mail email user role =>
        unfold Caller.outcome
        dsimp only
        split <;> rfl
      | _ => cases hemail
    split
    all_goals
      refine h.meter_kept hget rfl le_rfl (howes fun ho => ho) ?_
      rintro ⟨caller', hm, hemail⟩
      exact absurd hemail (hno caller' (hproc.symm.trans hm))
  | replaced channel address code held now =>
    rcases Table.get_put_eq_some hrow' with ⟨rfl, _⟩ | ⟨_, hold⟩
    · left
      change Balanced _ (c.store.compared c.store.issued) _ _
      rw [(h.unissued c.store.issued le_rfl).2]
      exact balanced_zero _ _ _
    · exact h.meter_kept (Table.get_deleteWhere_eq_some.mp hold).1 rfl le_rfl (howes fun ho => ho)
        (hconsumes fun _ heq => (by cases heq))
  | accounts users hnames =>
    exact h.meter_kept hrow' rfl (figure_mono hnames (fun _ => le_rfl) rfl rfl le_rfl)
      (howes fun ho => ho) (hconsumes fun _ heq => (by cases heq))
  | reset user =>
    rw [CodeStore.challenge, resetFailures_challenges] at hrow'
    exact h.meter_cleared hguard hrow' (howes fun ho => ho)
      (hconsumes fun _ heq => (by cases heq)) fun hnone => hnone.elim

theorem AttemptsInv.commit (h : AttemptsInv c) {i : ι} {ev : CodeEvent} {m' : CodeRequest}
    {s' : CodeStore} (hcommit : CodeCommit svc (c.proc i) c.store ev m' s')
    (hcurrent : JudgesCurrent c (i, some ev)) : AttemptsInv ⟨s', Function.update c.proc i m'⟩ := by
  have hjudged : ∀ caller id row, c.proc i = loaded caller id row → ev = .compared id false →
      ∀ current, c.store.challenge id = some current → current.attempts = row.attempts := by
    intro caller id row hproc hev current hget
    obtain ⟨found, hfound, hattempts, _⟩ := h.judged hproc (hev ▸ hcurrent)
    obtain rfl : found = current := Option.some.inj (hfound.symm.trans hget)
    exact hattempts
  -- Only the comparison of a wrong code makes a request owe, and then no other one does.
  have howes : ∀ id, m'.Owes id → (c.proc i).Owes id ∨
      (∃ caller row, c.proc i = loaded caller id row ∧ ev = .compared id false) := by
    intro id ho
    generalize hproc : c.proc i = m at hcommit
    cases hcommit with
    | mismatch caller k row code hcode =>
      obtain rfl : k = id := ho
      exact Or.inr ⟨caller, row, rfl, rfl⟩
    | _ => exact ho.elim
  have hlast : ∀ j id, j ≠ i → (c.proc j).Owes id → ¬ m'.Owes id := by
    intro j id hj hjo ho
    rcases howes id ho with hold | ⟨caller, row, hproc, rfl⟩
    · exact hj (h.owner j i id hjo hold)
    · obtain ⟨_, _, _, _, hnone, _⟩ := h.judged hproc hcurrent
      exact hnone ⟨j, hjo⟩
  refine ⟨commit_unissued h.unissued (h.valid i) hcommit, fun id => ?_, fun j => ?_,
    fun j j' id hj hj' => ?_, h.commit_meter rfl hcommit hcurrent⟩
  · dsimp only
    generalize hproc : c.proc i = m at hcommit
    cases hcommit with
    | mismatch caller k row code hcode =>
      have hlt := h.judged_lt hproc hcurrent
      dsimp only
      by_cases hid : id = k
      · subst hid
        rw [Function.update_self]
        omega
      · rw [Function.update_of_ne hid]
        exact h.cap id
    | refused caller | charged caller | discarded caller | cleared caller =>
      cases caller.user <;> exact h.cap id
    | succeeded caller k found remembered =>
      split <;> exact h.cap id
    | _ => exact h.cap id
  · by_cases hj : j = i
    · subst hj
      dsimp only
      rw [Function.update_self]
      exact commit_valid (h.valid j) hcommit hjudged
    · dsimp only
      rw [Function.update_of_ne hj]
      exact (h.valid j).commit hcommit fun id hi hjo => hj (h.owner j i id hjo hi)
  · dsimp only at hj hj'
    by_cases hji : j = i
    · by_cases hji' : j' = i
      · rw [hji, hji']
      · subst hji
        rw [Function.update_self] at hj
        rw [Function.update_of_ne hji'] at hj'
        exact absurd hj (hlast j' id hji' hj')
    · rw [Function.update_of_ne hji] at hj
      by_cases hji' : j' = i
      · subst hji'
        rw [Function.update_self] at hj'
        exact absurd hj' (hlast j id hji hj)
      · rw [Function.update_of_ne hji'] at hj'
        exact h.owner j j' id hj hj'

theorem attemptsInv_reach (hc : ((codeSystem svc ι).guarded JudgesCurrent).Reach c) :
    AttemptsInv c := by
  induction hc with
  | @init c hinit =>
    have hidle : ∀ i, c.proc i = idle := hinit.2
    have hnone : ∀ id, c.store.challenge id = none := by
      intro id
      unfold CodeStore.challenge
      rw [hinit.1.challenges, Table.get_empty]
    refine ⟨fun id _ => ⟨hnone id, hinit.1.compared id⟩, fun id => ?_, fun i => ?_,
      fun i j id hi => ?_, fun id row hrow => ?_⟩
    · rw [hinit.1.compared id]
      exact Nat.zero_le _
    · rw [hidle i]
      trivial
    · rw [hidle i] at hi
      exact hi.elim
    · rw [hnone id] at hrow
      cases hrow
  | step _ hstep ih =>
    obtain ⟨hstep, hcurrent⟩ := hstep
    cases hstep with
    | read i m' hread hfree => exact ih.read hread
    | commit i ev m' s' hcommit hfree => exact ih.commit hcommit hcurrent

/-- A wrong or right code that is compared under the condition comes before the cap. -/
theorem compared_before_cap {c' : Config ι CodeStore CodeRequest} {i : ι} {id : ChallengeId}
    {right : Bool} (hc : ((codeSystem svc ι).guarded JudgesCurrent).Reach c)
    (hstep : ((codeSystem svc ι).guarded JudgesCurrent).step c (i, some (.compared id right)) c') :
    c.store.compared id < maxVerifyAttempts := by
  obtain ⟨hstep, hcurrent⟩ := hstep
  cases hstep with
  | commit _ _ m' s' hcommit hfree =>
    have hcommit : CodeCommit svc (c.proc i) c.store (.compared id right) m' s' := hcommit
    generalize hproc : c.proc i = m at hcommit
    cases hcommit with
    | mismatch caller _ row code hcode => exact (attemptsInv_reach hc).judged_lt hproc hcurrent
    | «match» caller _ row code hcode => exact (attemptsInv_reach hc).judged_lt hproc hcurrent

end System

end CampusQuest.Identity
