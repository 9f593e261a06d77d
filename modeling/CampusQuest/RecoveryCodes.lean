import CampusQuest.SecondFactorLockout
import CampusQuest.TwoProcesses

/-!
Recovery codes. A login with the password may present one in place of the second factor: it
locks the unused codes of the account, marks the one that matches, and its own commit alone
makes that last. The setup of an authenticator wipes the codes of the account and stores a
new batch.
-/

namespace CampusQuest.Identity

open Locking Runs Tables FactorRequest

/-- `issued` is a ghost: the recovery codes that have ever been stored. -/
structure RecoveryStore where
  factors : FactorStore
  issued : Finset RecoveryId

def recoveryCodeCount : ℕ := 8

/-- A request that binds the authenticator of an account. It holds the credential row, and
once it has wiped the recovery codes their rows too. -/
inductive Enrolment
  | idle
  | beginning (user : UserId)
  | confirming (user : UserId)
  | wiping (user : UserId) (held : Finset RecoveryId)

inductive EnrolEvent
  | abandoned
  | begun (user : UserId)
  | issued (user : UserId)

def Enrolment.user : Enrolment → Option UserId
  | idle => none
  | beginning user | confirming user | wiping user _ => some user

abbrev Attempt := FactorRequest ⊕ Enrolment

abbrev AttemptEvent := FactorEvent ⊕ EnrolEvent

def Attempt.locks : Attempt → (ChallengeId ⊕ RecoveryId) ⊕ UserId → Prop
  | .inl r, .inl k => r.locks k
  | .inr (.wiping _ held), .inl (.inr id) => id ∈ held
  | .inr e, .inr user => e.user = some user
  | _, _ => False

namespace FactorStore

variable (s : FactorStore)

def codesOf (user : UserId) : Finset RecoveryId :=
  s.recovery.keys.filter fun id => (s.recovery.get id).any fun r => r.userId = user

/-- `begin_totp_setup`: the secret of a credential that is not confirmed yet. -/
def bind (user : UserId) (secretEncrypted : Text) : FactorStore :=
  { s with credentials := s.credentials.put user ⟨secretEncrypted, none⟩ }

/-- `confirm_totp_setup`: the credential is confirmed and the codes are replaced. -/
def issue (user : UserId) (held : Finset RecoveryId) (batch : List (RecoveryId × Text))
    (now : Instant) : FactorStore :=
  { s with
    credentials := s.credentials.updateWhere (fun k _ => k = user) fun c =>
      { c with confirmedAt := some now }
    recovery := batch.foldl (fun t b => t.put b.1 ⟨user, b.2, none⟩)
      (s.recovery.deleteWhere fun k _ => k ∈ held) }

end FactorStore

/-- The reads of a setup. Beginning refuses a confirmed credential, and so does confirming,
which also asks for a code. -/
inductive EnrolRead (svc : FactorService) : Enrolment → FactorStore → Enrolment → Prop
  | begin {s : FactorStore} (user : UserId)
      (hunconfirmed : ∀ c, s.credentials.get user = some c → c.confirmedAt = none) :
      EnrolRead svc .idle s (.beginning user)
  | confirm {s : FactorStore} (user : UserId) (c : TotpCredential) (code : Text) (now : Instant)
      (hget : s.credentials.get user = some c) (hunconfirmed : c.confirmedAt = none)
      (hcode : svc.verifyTotpCode (svc.decryptSecret c.secretEncrypted) code now = true) :
      EnrolRead svc .idle s (.confirming user)
  | wipe {s : FactorStore} (user : UserId) :
      EnrolRead svc (.confirming user) s (.wiping user (s.codesOf user))

/-- The commits of a setup. The server's new ids have never been in use. -/
inductive EnrolCommit : Enrolment → RecoveryStore → EnrolEvent → RecoveryStore → Prop
  | abandoned {s : RecoveryStore} (e : Enrolment) : EnrolCommit e s .abandoned s
  | begun {s : RecoveryStore} (user : UserId) (secretEncrypted : Text) :
      EnrolCommit (.beginning user) s (.begun user)
        { s with factors := s.factors.bind user secretEncrypted }
  | issued {s : RecoveryStore} (user : UserId) (held : Finset RecoveryId)
      (batch : List (RecoveryId × Text)) (now : Instant)
      (hcount : batch.length = recoveryCodeCount) (hfresh : ∀ b ∈ batch, b.1 ∉ s.issued)
      (hnodup : (batch.map Prod.fst).Nodup) :
      EnrolCommit (.wiping user held) s (.issued user)
        ⟨s.factors.issue user held batch now, s.issued ∪ (batch.map Prod.fst).toFinset⟩

/-- Nothing but a setup writes credentials and stores recovery codes. -/
inductive AttemptCommit (svc : FactorService) :
    Attempt → RecoveryStore → AttemptEvent → Attempt → RecoveryStore → Prop
  | factor {s : RecoveryStore} (r r' : FactorRequest) (ev : FactorEvent) (factors : FactorStore)
      (hcommit : FactorCommit svc r s.factors ev r' factors)
      (helsewhere : ev = .elsewhere → factors.recovery = s.factors.recovery ∧
        factors.credentials = s.factors.credentials) :
      AttemptCommit svc (.inl r) s (.inl ev) (.inl r') { s with factors := factors }
  | enrol {s s' : RecoveryStore} (e : Enrolment) (ev : EnrolEvent)
      (hcommit : EnrolCommit e s ev s') :
      AttemptCommit svc (.inr e) s (.inr ev) (.inr .idle) s'

inductive AttemptRead (svc : FactorService) : Attempt → RecoveryStore → Attempt → Prop
  | factor {s : RecoveryStore} (r r' : FactorRequest) (hread : FactorRead svc r s.factors r') :
      AttemptRead svc (.inl r) s (.inl r')
  | enrol {s : RecoveryStore} (e e' : Enrolment) (hread : EnrolRead svc e s.factors e') :
      AttemptRead svc (.inr e) s (.inr e')

/-- The rows that a request holds are codes of its account, unused ones in a login. -/
def RecoveryStore.Knows (s : RecoveryStore) : Attempt → Prop
  | .inl (recovering user _ _ held) => held ⊆ s.factors.unusedCodes user
  | .inl (verified _ user used held) =>
    (∀ id ∈ used, id ∈ held) ∧ held ⊆ s.factors.unusedCodes user
  | .inr (.wiping user held) => held ⊆ s.factors.codesOf user
  | _ => True

def recoveryProtocol (svc : FactorService) :
    Protocol RecoveryStore ((ChallengeId ⊕ RecoveryId) ⊕ UserId) Attempt AttemptEvent where
  locks := Attempt.locks
  known m s := s.Knows m
  start m := m = .inl (code .idle) ∨ m = .inr .idle
  read := AttemptRead svc
  commit := AttemptCommit svc

def RecoveryStore.Recorded (s : RecoveryStore) : Prop :=
  ∀ id row, s.factors.recovery.get id = some row → id ∈ s.issued

def recoverySystem (svc : FactorService) (ι : Type*) [DecidableEq ι] :
    System (Config ι RecoveryStore Attempt) (Move ι AttemptEvent) :=
  (recoveryProtocol svc).system ι RecoveryStore.Recorded

section Effects

variable {svc : FactorService} {s s' : FactorStore} {user : UserId} {id : RecoveryId}

theorem mem_unusedCodes : id ∈ s.unusedCodes user ↔
    ∃ row, s.recovery.get id = some row ∧ row.userId = user ∧ row.usedAt = none := by
  unfold FactorStore.unusedCodes
  rw [Finset.mem_filter, Table.mem_keys_iff]
  cases s.recovery.get id with
  | none => simp
  | some row => simp

theorem mem_codesOf : id ∈ s.codesOf user ↔
    ∃ row, s.recovery.get id = some row ∧ row.userId = user := by
  unfold FactorStore.codesOf
  rw [Finset.mem_filter, Table.mem_keys_iff]
  cases s.recovery.get id with
  | none => simp
  | some row => simp

theorem unusedCodes_congr (h : s'.recovery = s.recovery) :
    s'.unusedCodes user = s.unusedCodes user := by
  unfold FactorStore.unusedCodes
  rw [h]

theorem get_useCode {now : Instant} {k : RecoveryId} :
    (s.useCode now (some id)).recovery.get k =
      (s.recovery.get k).map fun r => if k = id then { r with usedAt := some now } else r :=
  Table.get_updateWhere _ k

/-- A code that is marked leaves the unused codes of every account as they are but for itself. -/
theorem unusedCodes_useCode {now : Instant} :
    (s.useCode now (some id)).unusedCodes user = (s.unusedCodes user).erase id := by
  ext k
  rw [Finset.mem_erase, mem_unusedCodes, mem_unusedCodes, get_useCode]
  by_cases hk : k = id
  · cases s.recovery.get k with
    | none => simp
    | some row => simp [hk]
  · cases s.recovery.get k with
    | none => simp
    | some row => simp [hk]

theorem get_foldl_put {t : Table RecoveryId RecoveryCode} {batch : List (RecoveryId × Text)}
    (h : ∀ b ∈ batch, b.1 ≠ id) :
    (batch.foldl (fun t b => t.put b.1 ⟨user, b.2, none⟩) t).get id = t.get id := by
  induction batch generalizing t with
  | nil => rfl
  | cons b batch ih =>
    rw [List.foldl_cons, ih fun b' hb' => h b' (List.mem_cons_of_mem _ hb')]
    exact Table.get_put_of_ne t _ (Ne.symm (h b List.mem_cons_self))

/-- A code of the old batches is left as it is, or wiped. -/
theorem get_issue {held : Finset RecoveryId} {batch : List (RecoveryId × Text)} {now : Instant}
    {row : RecoveryCode} (h : ∀ b ∈ batch, b.1 ≠ id) :
    (s.issue user held batch now).recovery.get id = some row ↔
      s.recovery.get id = some row ∧ id ∉ held := by
  have hkept : (s.issue user held batch now).recovery.get id =
      (s.recovery.deleteWhere fun k _ => k ∈ held).get id := get_foldl_put h
  rw [hkept]
  exact Table.get_deleteWhere_eq_some

/-- A row of the new tables is an old one or one of the batch. -/
theorem get_foldl_put_cases {t : Table RecoveryId RecoveryCode}
    {batch : List (RecoveryId × Text)} {row : RecoveryCode}
    (h : (batch.foldl (fun t b => t.put b.1 ⟨user, b.2, none⟩) t).get id = some row) :
    t.get id = some row ∨ (id ∈ batch.map Prod.fst ∧ row.userId = user) := by
  induction batch generalizing t with
  | nil => exact Or.inl h
  | cons b batch ih =>
    rcases ih h with hput | ⟨hmem, huser⟩
    · rcases Table.get_put_eq_some hput with ⟨rfl, rfl⟩ | ⟨_, hold⟩
      · exact Or.inr ⟨List.mem_cons_self, rfl⟩
      · exact Or.inl hold
    · exact Or.inr ⟨List.mem_cons_of_mem _ hmem, huser⟩

/-- A step of a login writes no recovery code but the one that it used. -/
theorem factor_recovery {r r' : FactorRequest} {ev : FactorEvent}
    (hcommit : FactorCommit svc r s ev r' s')
    (helsewhere : ev = .elsewhere → s'.recovery = s.recovery) :
    s'.recovery = s.recovery ∨ ∃ user id held now, r = verified .password user (some id) held ∧
      ev = .completed user ∧ s'.recovery = (s.useCode now (some id)).recovery := by
  cases hcommit with
  | login user used held now =>
    cases used with
    | none => exact Or.inl rfl
    | some id => exact Or.inr ⟨user, id, held, now, rfl, rfl, rfl⟩
  | elsewhere => exact Or.inl (helsewhere rfl)
  | _ => exact Or.inl rfl

/-- A request that has committed holds no recovery code. -/
theorem factor_knows {r r' : FactorRequest} {ev : FactorEvent}
    (hcommit : FactorCommit svc r s ev r' s') (t : RecoveryStore) : t.Knows (.inl r') := by
  cases hcommit with
  | wrong domain => cases domain <;> trivial
  | _ => trivial

end Effects

section Rows

variable {svc : FactorService} {s s' : RecoveryStore} {m m' o : Attempt} {ev : AttemptEvent}

/-- What one commit does to the recovery codes: nothing, the code of a login is used, or the
codes of an account are wiped and replaced. -/
inductive Writes (m : Attempt) (s : RecoveryStore) : AttemptEvent → RecoveryStore → Prop
  | nothing {ev : AttemptEvent} {s' : RecoveryStore}
      (hrecovery : s'.factors.recovery = s.factors.recovery) (hissued : s'.issued = s.issued) :
      Writes m s ev s'
  | used {s' : RecoveryStore} (user : UserId) (id : RecoveryId) (held : Finset RecoveryId)
      (now : Instant) (hm : m = .inl (verified .password user (some id) held))
      (hrecovery : s'.factors.recovery = (s.factors.useCode now (some id)).recovery)
      (hissued : s'.issued = s.issued) : Writes m s (.inl (.completed user)) s'
  | replaced (user : UserId) (held : Finset RecoveryId) (batch : List (RecoveryId × Text))
      (now : Instant) (hm : m = .inr (.wiping user held))
      (hfresh : ∀ b ∈ batch, b.1 ∉ s.issued) :
      Writes m s (.inr (.issued user))
        ⟨s.factors.issue user held batch now, s.issued ∪ (batch.map Prod.fst).toFinset⟩

theorem commit_writes (hcommit : AttemptCommit svc m s ev m' s') : Writes m s ev s' := by
  cases hcommit with
  | factor r r' ev factors hcommit helsewhere =>
    rcases factor_recovery hcommit fun h => (helsewhere h).1 with
      hsame | ⟨user, id, held, now, rfl, rfl, hused⟩
    · exact .nothing hsame rfl
    · exact .used user id held now rfl hused rfl
  | enrol e ev hcommit =>
    cases hcommit with
    | abandoned => exact .nothing rfl rfl
    | begun => exact .nothing rfl rfl
    | issued user held batch now _ hfresh _ => exact .replaced user held batch now rfl hfresh

/-- A code of an old batch keeps its account; it is left alone unless it was held. -/
theorem Writes.get (h : Writes m s ev s') (hknown : s.Knows m) {id : RecoveryId}
    (hid : id ∈ s.issued) (hheld : ¬ Attempt.locks m (.inl (.inr id))) :
    s'.factors.recovery.get id = s.factors.recovery.get id := by
  cases h with
  | nothing hrecovery _ => rw [hrecovery]
  | used user id' held now hm hrecovery _ =>
    subst hm
    have hne : id ≠ id' := by
      rintro rfl
      exact hheld (hknown.1 id rfl)
    rw [hrecovery, get_useCode]
    cases s.factors.recovery.get id with
    | none => rfl
    | some row => rw [Option.map_some, if_neg hne]
  | replaced user held batch now hm hfresh =>
    subst hm
    have hbatch : ∀ b ∈ batch, b.1 ≠ id := by
      rintro b hb rfl
      exact hfresh b hb hid
    ext row
    exact (get_issue hbatch).trans (and_iff_left hheld)

theorem Writes.issued_mono (h : Writes m s ev s') : s.issued ⊆ s'.issued := by
  cases h with
  | nothing _ hissued => rw [hissued]
  | used _ _ _ _ _ _ hissued => rw [hissued]
  | replaced => exact Finset.subset_union_left

theorem Writes.recorded (h : Writes m s ev s') (hs : s.Recorded) : s'.Recorded := by
  intro id row hget
  cases h with
  | nothing hrecovery hissued =>
    rw [hrecovery] at hget
    rw [hissued]
    exact hs id row hget
  | used user id' held now hm hrecovery hissued =>
    rw [hrecovery, get_useCode] at hget
    obtain ⟨old, hold, _⟩ := Option.map_eq_some_iff.mp hget
    rw [hissued]
    exact hs id old hold
  | replaced user held batch now hm hfresh =>
    rcases get_foldl_put_cases hget with hold | ⟨hmem, _⟩
    · exact Finset.mem_union_left _ (hs id row (Table.get_deleteWhere_eq_some.mp hold).1)
    · exact Finset.mem_union_right _ (List.mem_toFinset.mpr hmem)

/-- Rows that a request holds stay as it knows them under the commits of the others. -/
theorem Writes.knows (h : Writes m s ev s') (hs : s.Recorded) (hknown : s.Knows m)
    (hother : s.Knows o) (hdisjoint : ∀ k, Attempt.locks m k → ¬ Attempt.locks o k) :
    s'.Knows o := by
  have hkept {id : RecoveryId} (hid : id ∈ s.issued) (hlocked : Attempt.locks o (.inl (.inr id))) :
      s'.factors.recovery.get id = s.factors.recovery.get id :=
    h.get hknown hid fun hm => hdisjoint _ hm hlocked
  have hunused {user : UserId} {held : Finset RecoveryId}
      (hlocked : ∀ id ∈ held, Attempt.locks o (.inl (.inr id)))
      (hheld : held ⊆ s.factors.unusedCodes user) : held ⊆ s'.factors.unusedCodes user := by
    intro id hid
    obtain ⟨row, hget, hrow⟩ := mem_unusedCodes.mp (hheld hid)
    exact mem_unusedCodes.mpr ⟨row, (hkept (hs id row hget) (hlocked id hid)).trans hget, hrow⟩
  cases o with
  | inl r =>
    cases r with
    | recovering user checked submitted held => exact hunused (fun id hid => hid) hother
    | verified leg user used held => exact ⟨hother.1, hunused (fun id hid => hid) hother.2⟩
    | _ => trivial
  | inr e =>
    cases e with
    | wiping user held =>
      intro id hid
      obtain ⟨row, hget, huser⟩ := mem_codesOf.mp (hother hid)
      exact mem_codesOf.mpr ⟨row, (hkept (hs id row hget) hid).trans hget, huser⟩
    | _ => trivial

theorem read_knows (hread : AttemptRead svc m s m') (hknown : s.Knows m) :
    s.Knows m' := by
  cases hread with
  | factor r r' hread =>
    cases hread with
    | right => exact ⟨fun id hid => (by cases hid), Finset.empty_subset _⟩
    | recover => exact Finset.Subset.refl _
    | recovered user checked submitted held id row hmem =>
      refine ⟨fun id' hid' => ?_, hknown⟩
      obtain rfl := Option.some.inj hid'
      exact hmem
    | _ => trivial
  | enrol e e' hread =>
    cases hread with
    | wipe user => exact Finset.Subset.refl _
    | _ => trivial

theorem recoveryProtocol_sound (svc : FactorService) :
    (recoveryProtocol svc).Sound RecoveryStore.Recorded where
  start_locks m k hm := by
    rcases hm with rfl | rfl
    · rcases k with (_ | _) | _ <;> exact id
    · rcases k with (_ | _) | _
      · exact id
      · exact id
      · exact fun h => (by cases h)
  start_known m s hm := by
    rcases hm with rfl | rfl <;> trivial
  read_known m s m' hknown hread := read_knows hread hknown
  commit_inv m s ev m' s' hs _ hcommit := (commit_writes hcommit).recorded hs
  commit_known m s ev m' s' _ _ hcommit := by
    cases hcommit with
    | factor r r' ev factors hcommit => exact factor_knows hcommit _
    | enrol => trivial
  commit_stable m s ev m' s' o hs hknown hcommit hother hdisjoint :=
    (commit_writes hcommit).knows hs hknown hother hdisjoint

end Rows

section Attempts

variable {svc : FactorService} {ι : Type*} [DecidableEq ι]
  {c c' : Config ι RecoveryStore Attempt}

/-- A login commits with this recovery code in place of the second factor. -/
def AcceptsCode (id : RecoveryId)
    (e : Config ι RecoveryStore Attempt × Move ι AttemptEvent × Config ι RecoveryStore Attempt) :
    Prop :=
  ∃ user held, e.1.proc e.2.1.1 = .inl (verified .password user (some id) held) ∧
    e.2.1.2 = some (.inl (.completed user))

def IssuesBatch (user : UserId) (m : Move ι AttemptEvent) : Prop := m.2 = some (.inr (.issued user))

/-- The code has been in use and is not among the unused ones any more. -/
def SpentCode (id : RecoveryId) (s : RecoveryStore) : Prop :=
  id ∈ s.issued ∧ ∀ row, s.factors.recovery.get id = some row → row.usedAt ≠ none

/-- A step leaves the store alone, or it is a commit of a request that knows its rows. -/
theorem attempt_step (hc : (recoverySystem svc ι).Reach c) {a : Move ι AttemptEvent}
    (hstep : (recoverySystem svc ι).step c a c') :
    c.store.Recorded ∧ ((a.2 = none ∧ c'.store = c.store) ∨
      ∃ ev m', a.2 = some ev ∧ c.store.Knows (c.proc a.1) ∧
        AttemptCommit svc (c.proc a.1) c.store ev m' c'.store) :=
  (recoveryProtocol_sound svc).step_store (fun _ h => h) hc hstep

/-- The code that a login commits with is marked. -/
theorem commit_accepts {s s' : RecoveryStore} {m' : Attempt} {user u : UserId} {id : RecoveryId}
    {held : Finset RecoveryId}
    (hcommit : AttemptCommit svc (.inl (verified .password user (some id) held)) s
      (.inl (.completed u)) m' s') :
    s'.issued = s.issued ∧
      ∃ now, s'.factors.recovery = (s.factors.useCode now (some id)).recovery := by
  cases hcommit with
  | factor r r' ev factors hcommit =>
    cases hcommit with
    | login user used held now => exact ⟨rfl, now, rfl⟩

theorem Writes.spent {m : Attempt} {s s' : RecoveryStore} {ev : AttemptEvent} {id : RecoveryId}
    (h : Writes m s ev s') (hspent : SpentCode id s) : SpentCode id s' := by
  refine ⟨h.issued_mono hspent.1, fun row hget => ?_⟩
  cases h with
  | nothing hrecovery _ =>
    rw [hrecovery] at hget
    exact hspent.2 row hget
  | used user id' held now hm hrecovery _ =>
    rw [hrecovery, get_useCode] at hget
    obtain ⟨old, hold, hrow⟩ := Option.map_eq_some_iff.mp hget
    by_cases hid : id = id'
    · rw [if_pos hid] at hrow
      rw [← hrow]
      exact Option.some_ne_none now
    · rw [if_neg hid] at hrow
      rw [← hrow]
      exact hspent.2 old hold
  | replaced user held batch now hm hfresh =>
    have hbatch : ∀ b ∈ batch, b.1 ≠ id := by
      rintro b hb rfl
      exact hfresh b hb hspent.1
    exact hspent.2 row ((get_issue hbatch).mp hget).1

/-- The unused codes of an account after a commit. -/
theorem Writes.unused {m : Attempt} {s s' : RecoveryStore} {ev : AttemptEvent} (user : UserId)
    (h : Writes m s ev s') (hs : s.Recorded) (hknown : s.Knows m) :
    s'.factors.unusedCodes user = s.factors.unusedCodes user ∨
      (∃ u id held, m = .inl (verified .password u (some id) held) ∧
        ev = .inl (.completed u) ∧
        s'.factors.unusedCodes user = (s.factors.unusedCodes user).erase id) ∨
      ev = .inr (.issued user) := by
  cases h with
  | nothing hrecovery _ => exact Or.inl (unusedCodes_congr hrecovery)
  | used u id held now hm hrecovery _ =>
    refine Or.inr (Or.inl ⟨u, id, held, hm, rfl, ?_⟩)
    rw [unusedCodes_congr hrecovery, unusedCodes_useCode]
  | replaced u held batch now hm hfresh =>
    by_cases huser : u = user
    · exact Or.inr (Or.inr (by rw [huser]))
    · left
      subst hm
      ext id
      rw [mem_unusedCodes, mem_unusedCodes]
      constructor
      · rintro ⟨row, hget, hrow, hunused⟩
        rcases get_foldl_put_cases hget with hold | ⟨_, hnew⟩
        · exact ⟨row, (Table.get_deleteWhere_eq_some.mp hold).1, hrow, hunused⟩
        · exact absurd (hnew.symm.trans hrow) huser
      · rintro ⟨row, hget, hrow, hunused⟩
        have hbatch : ∀ b ∈ batch, b.1 ≠ id := by
          rintro b hb rfl
          exact hfresh b hb (hs b.1 row hget)
        refine ⟨row, (get_issue hbatch).mpr ⟨hget, fun hheld => ?_⟩, hrow, hunused⟩
        obtain ⟨row', hget', hother⟩ := mem_codesOf.mp (hknown hheld)
        rw [hget] at hget'
        rw [← Option.some.inj hget', hrow] at hother
        exact huser hother.symm

end Attempts

/-- In every run of logins and setups, each of which may fail at any point: a recovery code is
accepted by one login at most; a step that neither completes a login with a recovery code nor
stores a new batch leaves the unused codes of every account as they are; and a code is never
added to them except by a new batch for the account. -/
theorem recovery_codes_single_use (svc : FactorService) {ι : Type*} [DecidableEq ι]
    {c c' : Config ι RecoveryStore Attempt}
    {l : List (Config ι RecoveryStore Attempt × Move ι AttemptEvent × Config ι RecoveryStore Attempt)}
    (hc : (recoverySystem svc ι).Reach c) (hrun : (recoverySystem svc ι).Run c l c') :
    (∀ id, l.Pairwise fun e e' => ¬ (AcceptsCode id e ∧ AcceptsCode id e')) ∧
    (∀ e ∈ l, ∀ user, (∀ u, e.2.1.2 ≠ some (.inl (.completed u))) → ¬ IssuesBatch user e.2.1 →
      e.2.2.store.factors.unusedCodes user = e.1.store.factors.unusedCodes user) ∧
    ∀ e ∈ l, ∀ user, ¬ IssuesBatch user e.2.1 →
      e.2.2.store.factors.unusedCodes user ⊆ e.1.store.factors.unusedCodes user := by
  have hsteps : ∀ e ∈ l, ∀ user, e.2.2.store.factors.unusedCodes user =
      e.1.store.factors.unusedCodes user ∨ (∃ u id, e.2.1.2 = some (.inl (.completed u)) ∧
        e.2.2.store.factors.unusedCodes user =
          (e.1.store.factors.unusedCodes user).erase id) ∨ IssuesBatch user e.2.1 := by
    rintro ⟨c₁, a, c₂⟩ he user
    obtain ⟨hstep, l', hbefore⟩ := hrun.step_mem he
    obtain ⟨hs, ⟨_, hsame⟩ | ⟨ev, _, hev, hknown, hcommit⟩⟩ := attempt_step (hbefore.reach hc) hstep
    · exact Or.inl (by rw [hsame])
    · rcases (commit_writes hcommit).unused user hs hknown with hsame | ⟨u, id, held, _, rfl, herase⟩ | rfl
      · exact Or.inl hsame
      · exact Or.inr (Or.inl ⟨u, id, hev, herase⟩)
      · exact Or.inr (Or.inr hev)
  refine ⟨fun id => ?_, fun e he user hopen hissue => ?_, fun e he user hissue => ?_⟩
  · refine (hrun.at_most_once (Q := fun c => SpentCode id c.store) (Y := AcceptsCode id)
      (fun c₁ a c₂ hc₁ hstep hspent => ?_) (fun c₁ a c₂ hc₁ hstep haccepts => ?_) hc).1
    · obtain ⟨_, ⟨_, hsame⟩ | ⟨ev, _, _, _, hcommit⟩⟩ := attempt_step hc₁ hstep
      · rw [hsame]
        exact hspent
      · exact (commit_writes hcommit).spent hspent
    · obtain ⟨user, held, hproc, hlabel⟩ := haccepts
      obtain ⟨hs, ⟨hnone, _⟩ | ⟨ev, _, hev, hknown, hcommit⟩⟩ := attempt_step hc₁ hstep
      · rw [hlabel] at hnone
        cases hnone
      · dsimp only at hproc hlabel
        rw [hlabel] at hev
        obtain rfl := Option.some.inj hev
        rw [hproc] at hknown hcommit
        obtain ⟨row, hget, _, hunused⟩ := mem_unusedCodes.mp (hknown.2 (hknown.1 id rfl))
        obtain ⟨hissued, now, hmarked⟩ := commit_accepts hcommit
        refine ⟨fun hspent => hspent.2 row hget hunused, ?_, fun row' hget' => ?_⟩
        · rw [hissued]
          exact hs id row hget
        · rw [hmarked, get_useCode, hget, Option.map_some, if_pos rfl, Option.some.injEq] at hget'
          rw [← hget']
          exact Option.some_ne_none now
  · rcases hsteps e he user with hsame | ⟨u, _, hcompleted, _⟩ | hissued
    · exact hsame
    · exact absurd hcompleted (hopen u)
    · exact absurd hissued hissue
  · rcases hsteps e he user with hsame | ⟨_, id, _, herase⟩ | hissued
    · rw [hsame]
    · rw [herase]
      exact Finset.erase_subset _ _
    · exact absurd hissued hissue

section Example

def rescued : RecoveryStore where
  factors := { mistaken 0 with recovery := Table.empty.put 7 ⟨1, ['r'], none⟩ }
  issued := {7}

theorem rescued_recorded : rescued.Recorded := by
  intro id row hget
  rcases Table.get_put_eq_some hget with ⟨rfl, _⟩ | ⟨_, hold⟩
  · exact Finset.mem_singleton_self 7
  · rw [Table.get_empty] at hold
    cases hold

/-- The password with a recovery code: the login takes the code from the unused ones. -/
theorem recovery_code_used_once :
    ((rescued.factors.useCode 0 (some 7)).complete 1).unusedCodes 1 ⊆
      rescued.factors.unusedCodes 1 := by
  have hidle (m : Attempt) (k : (ChallengeId ⊕ RecoveryId) ⊕ UserId) :
      Attempt.locks m k → ¬ Attempt.locks (.inl (code .idle)) k :=
    fun _ => (recoveryProtocol_sound plainFactors).start_locks _ k (Or.inl rfl)
  have hstart := Protocol.reaches_start (P := recoveryProtocol plainFactors)
    (G := fun _ _ => True) rescued_recorded (m := .inl (code .idle)) (n := .inl (code .idle))
    (Or.inl rfl) (Or.inl rfl)
  have hentered := hstart.read_left (.factor _ _ (.password mailbox 1 principal
    (mistaken_found 0) (mistaken_unlocked 0))) (hidle _) trivial
  have hproven := hentered.read_left (.factor _ _ (.prove 1 principal 0 ['p'] (by decide) rfl
    (by decide))) (hidle _) trivial
  have hpresenting := hproven.read_left (.factor _ _ (.present 1 principal 0 ['s'] rfl))
    (hidle _) trivial
  have hrecovering := hpresenting.read_left (.factor _ _ (.recover 1 0 ['s'] ['r'] 0 (by decide)))
    (hidle _) trivial
  have hmem : 7 ∈ rescued.factors.unusedCodes 1 :=
    mem_unusedCodes.mpr ⟨⟨1, ['r'], none⟩, rfl, rfl, rfl⟩
  have hverified := hrecovering.read_left (.factor _ _ (.recovered 1 0 ['r'] _ 7
    ⟨1, ['r'], none⟩ hmem rfl (by decide))) (hidle _) trivial
  have hlogin : AttemptCommit plainFactors (.inl (verified .password 1 (some 7) _)) rescued
      (.inl (.completed 1)) (.inl (finishing 1)) _ :=
    .factor _ _ _ _ (.login 1 (some 7) (rescued.factors.unusedCodes 1) 0) fun h => (by cases h)
  have hstep := Protocol.Step.commit (P := recoveryProtocol plainFactors)
    ⟨rescued, pair _ _⟩ false _ _ _ hlogin (Protocol.free_left (hidle _))
  have hsubset := (recovery_codes_single_use plainFactors (System.Reach.of_guarded hverified)
    (.snoc (.nil _) hstep)).2.2
  exact hsubset _ (List.mem_singleton_self _) 1 fun h => (by cases h)

end Example

end CampusQuest.Identity
