import CampusQuest.AbandonStatements
import CampusQuest.ClaimInvariants

/-!
The daily cap on abandons. Every abandon of a user queues on the user row, so the count it
makes is still right when it commits; each commits at an instant that its own window
contains, as long as the timezone moves no clock across a local midnight.
-/

namespace CampusQuest.Lifecycle.Abandoning

open Tables Transactions Guards WallClock Runs Locking

section Outcomes

variable {db : Db} {α β : Type} {p p' : Pending statements}

theorem ends_ask {q : Query} {f : q.Answer → AbandonTxn α} {r : Except LifecycleError α} :
    (ask q >>= f).Ends locking db p r p' ↔
      ∃ a, q.Retained (fun k => k ∈ p.locks) (p.view db) a ∧ (f a).Ends locking db p r p' :=
  Iff.rfl

theorem ends_lock {k : LockKey} {f : Unit → AbandonTxn α} {r : Except LifecycleError α} :
    (lock k >>= f).Ends locking db p r p' ↔ (f ()).Ends locking db (p.hold k) r p' :=
  Iff.rfl

theorem ends_write {w : Write} {f : Unit → AbandonTxn α} {r : Except LifecycleError α} :
    (write w >>= f).Ends locking db p r p' ↔ (f ()).Ends locking db (p.add w) r p' :=
  Iff.rfl

theorem ends_pure {a : α} {r : Except LifecycleError α} :
    (pure a : AbandonTxn α).Ends locking db p r p' ↔ r = .ok a ∧ p' = p :=
  Iff.rfl

theorem ends_refuse {e : LifecycleError} {r : Except LifecycleError α} :
    (refuse e : AbandonTxn α).Ends locking db p r p' ↔ r = .error e ∧ p' = p :=
  Iff.rfl

theorem releaseAssignment_ends {a : AssignmentId} {r : Except LifecycleError Unit}
    (h : (releaseAssignment a).Ends locking db p r p') :
    r = .ok () ∧ p'.view db = (p.view db).leaveOccupied a .available ∧
      (∀ k ∈ p.locks, k ∈ p'.locks) ∧ ∀ w ∈ p'.writes, w ∈ p.writes ∨ ∃ row, w = .assignment a row := by
  unfold releaseAssignment at h
  rw [ends_lock, ends_ask] at h
  obtain ⟨answer, hret, h⟩ := h
  have hget : (p.view db).assignments.get a = answer := hret List.mem_cons_self
  have hsame : p' = p.hold (.assignment a) →
      (∀ k ∈ p.locks, k ∈ p'.locks) ∧ ∀ w ∈ p'.writes, w ∈ p.writes ∨ ∃ row, w = .assignment a row := by
    rintro rfl
    exact ⟨fun k hk => List.mem_cons_of_mem _ hk, fun w hw => Or.inl hw⟩
  unfold Db.leaveOccupied
  rw [hget]
  cases answer with
  | none =>
    obtain ⟨rfl, hp⟩ := ends_pure.mp h
    refine ⟨rfl, ?_, hsame hp⟩
    rw [hp]
    rfl
  | some row =>
    dsimp only at h ⊢
    split at h
    next hoccupied =>
      obtain ⟨rfl, rfl⟩ := h
      rw [if_pos hoccupied]
      refine ⟨rfl, ?_, fun k hk => ?_, fun w hw => ?_⟩
      · rw [Pending.view_add]
        rfl
      · exact List.mem_cons_of_mem _ (List.mem_cons_of_mem _ hk)
      · rcases List.mem_append.mp hw with hold | hnew
        · exact Or.inl hold
        · exact Or.inr ⟨_, List.mem_singleton.mp hnew⟩
    next hother =>
      obtain ⟨rfl, hp⟩ := ends_pure.mp h
      rw [if_neg hother]
      refine ⟨rfl, ?_, hsame hp⟩
      rw [hp]
      rfl

theorem guarded_abandon {L : LockKey → Prop} {id : ClaimId} {claim : AssignmentClaim}
    {now : Instant} (hclaim : db.claims.get id = some claim) (hlock : L (.user claim.userId)) :
    Write.Guarded L db (.claim id (claim.terminate .abandoned now)) := by
  intro u hu
  have hother : claim.userId ≠ u := by
    intro heq
    rw [heq] at hlock
    exact hu hlock
  have hnew : (claim.terminate .abandoned now).userId ≠ u := hother
  rw [hclaim, abandonedAt_of_ne hother, abandonedAt_of_ne hnew]

theorem covered_of_no_writes (h : p'.writes = []) : Covered p' db := by
  intro w hw
  rw [h] at hw
  cases hw

variable {zone : Zone} {limit : ℕ} {now : Instant} {user : UserId} {id : ClaimId}

/-- However its statements are interleaved, an abandon ends as `abandonClaim` does on the
tables of the moment at which it ends. -/
theorem abandonStatements_ends {r : Except LifecycleError AssignmentClaim}
    (h : (abandonStatements zone limit now user id).Ends locking db .start r p') :
    (∃ row db', abandonClaim db now (businessDayWindow zone now) limit user id = .ok (row, db') ∧
        r = .ok row ∧ p'.view db = db' ∧ Covered p' db) ∨
      ∃ e, abandonClaim db now (businessDayWindow zone now) limit user id = .error e ∧
        r = .error e := by
  unfold abandonStatements at h
  rw [ends_lock, ends_ask] at h
  obtain ⟨account, haccount, h⟩ := h
  have haccount : db.users.get user = account := haccount List.mem_cons_self
  unfold abandonClaim requireActiveStudent
  rw [haccount]
  cases account with
  | none =>
    obtain ⟨rfl, rfl⟩ := ends_refuse.mp h
    exact Or.inr ⟨_, rfl, rfl⟩
  | some account =>
  dsimp only at h
  split at h
  next hrole =>
    obtain ⟨rfl, rfl⟩ := ends_refuse.mp h
    refine Or.inr ⟨_, ?_, rfl⟩
    simp [orRefuse, ensure, hrole, bind, Except.bind]
  next hrole =>
  rw [not_not] at hrole
  split at h
  next hstatus =>
    obtain ⟨rfl, rfl⟩ := ends_refuse.mp h
    refine Or.inr ⟨_, ?_, rfl⟩
    simp [orRefuse, ensure, hrole, hstatus, bind, Except.bind]
  next hstatus =>
  rw [not_not] at hstatus
  rw [ends_lock, ends_ask] at h
  obtain ⟨claim, hclaim, h⟩ := h
  have hclaim : db.claims.get id = claim := hclaim List.mem_cons_self
  rw [hclaim]
  cases claim with
  | none =>
    obtain ⟨rfl, rfl⟩ := ends_refuse.mp h
    refine Or.inr ⟨_, ?_, rfl⟩
    simp [orRefuse, ensure, hrole, hstatus, bind, Except.bind]
  | some claim =>
  dsimp only at h
  split at h
  next howner =>
    obtain ⟨rfl, rfl⟩ := ends_refuse.mp h
    refine Or.inr ⟨_, ?_, rfl⟩
    simp [orRefuse, ensure, hrole, hstatus, howner, bind, Except.bind]
  next howner =>
  rw [not_not] at howner
  split at h
  next hreplay =>
    obtain ⟨rfl, rfl⟩ := ends_pure.mp h
    refine Or.inl ⟨claim, db, ?_, rfl, rfl, covered_of_no_writes rfl⟩
    simp [orRefuse, ensure, hrole, hstatus, howner, hreplay, bind, Except.bind, pure, Except.pure]
  next hfresh =>
  split at h
  next hlate =>
    obtain ⟨rfl, rfl⟩ := ends_refuse.mp h
    refine Or.inr ⟨_, ?_, rfl⟩
    simp [orRefuse, ensure, hrole, hstatus, howner, hfresh, hlate, bind, Except.bind]
  next hactionable =>
  rw [Bool.not_eq_false] at hactionable
  rw [ends_ask] at h
  obtain ⟨used, hused, h⟩ := h
  have hused : db.abandonsBetween user (businessDayWindow zone now).1
      (businessDayWindow zone now).2 = used := hused (by simp [Pending.hold])
  split at h
  next hcapped =>
    obtain ⟨rfl, rfl⟩ := ends_refuse.mp h
    refine Or.inr ⟨_, ?_, rfl⟩
    have hnot : ¬ db.abandonsBetween user (businessDayWindow zone now).1
        (businessDayWindow zone now).2 < limit := by omega
    simp [orRefuse, ensure, hrole, hstatus, howner, hfresh, hactionable, hnot, bind, Except.bind]
  next hopen =>
  have hcount : db.abandonsBetween user (businessDayWindow zone now).1
      (businessDayWindow zone now).2 < limit := by omega
  rcases Txn.ends_bind.mp h with ⟨_, p₁, hrelease, h⟩ | ⟨e, hrelease, _⟩
  · obtain ⟨_, hview, hlocks, hwrites⟩ := releaseAssignment_ends hrelease
    rw [ends_write, ends_pure] at h
    obtain ⟨rfl, rfl⟩ := h
    refine Or.inl ⟨claim.terminate .abandoned now,
      (db.leaveOccupied claim.assignmentId .available).putClaim id
        (claim.terminate .abandoned now), ?_, rfl, ?_, fun w hw => ?_⟩
    · simp [orRefuse, ensure, hrole, hstatus, howner, hfresh, hactionable, hcount, bind,
        Except.bind, pure, Except.pure]
    · rw [Pending.view_add, hview]
      rfl
    · rcases List.mem_append.mp hw with hold | hnew
      · rcases hwrites w hold with hstart | ⟨row, rfl⟩
        · cases hstart
        · trivial
      · rw [List.mem_singleton.mp hnew]
        refine guarded_abandon hclaim ?_
        rw [howner]
        exact List.mem_cons_of_mem _ (hlocks _ (by simp [Pending.hold]))
  · cases (releaseAssignment_ends hrelease).1

end Outcomes

/-- The user's abandons of every business day stay within the limit. -/
def Capped (zone : Zone) (limit : ℕ) (db : Db) : Prop :=
  ∀ user t, db.abandonsBetween user (businessDayWindow zone t).1 (businessDayWindow zone t).2 ≤ limit

section Cap

variable {db db' : Db} {zone : Zone} {limit : ℕ} {now : Instant} {user : UserId} {id : ClaimId}

theorem Capped.congr (h : Capped zone limit db)
    (hsame : ∀ u c, abandonedAt u (db'.claims.get c) = abandonedAt u (db.claims.get c)) :
    Capped zone limit db' := by
  intro u t
  rw [abandonsBetween_congr (hsame u)]
  exact h u t

/-- An abandon at an instant of a natural day keeps the cap: the window that contains it is
the one it has counted. -/
theorem Capped.abandon {row : AssignmentClaim} (h : Capped zone limit db)
    (hday : NaturalDay zone now)
    (habandon : abandonClaim db now (businessDayWindow zone now) limit user id = .ok (row, db')) :
    Capped zone limit db' := by
  rcases abandonClaim_ok habandon with rfl | ⟨claim, _, howner, _, hcount, rfl⟩
  · exact h
  intro u t
  have hclaims := leaveOccupied_claims db claim.assignmentId .available
  have hput := Table.count_put_le (fun _ (c : AssignmentClaim) => c.userId = u ∧
    c.status = .abandoned ∧ (c.terminalAt.any fun at' => (businessDayWindow zone t).1 ≤ at' ∧
      at' < (businessDayWindow zone t).2) = true) db.claims id (claim.terminate .abandoned now)
  rw [← hclaims] at hput
  refine hput.trans ?_
  rw [hclaims]
  by_cases hcounted : u = user ∧ (businessDayWindow zone t).1 ≤ now ∧
      now < (businessDayWindow zone t).2
  · obtain ⟨rfl, hwithin⟩ := hcounted
    have hwindow := hday.window_eq hwithin
    rw [← hwindow] at hcount
    have hone : ∀ q : Prop, [Decidable q] → (if q then 1 else 0) ≤ 1 := by
      intro q _
      split <;> omega
    exact (Nat.add_le_add_left (hone _) _).trans hcount
  · rw [if_neg]
    · exact h u t
    · intro hrow
      obtain ⟨hu, _, hwithin⟩ := hrow
      have hu : claim.userId = u := hu
      have hwithin : decide ((businessDayWindow zone t).1 ≤ now ∧
        now < (businessDayWindow zone t).2) = true := hwithin
      exact hcounted ⟨by rw [← hu, howner], of_decide_eq_true hwithin⟩

/-- A claim that is abandoned already is returned as it is, or the caller is refused for
something other than the cap. -/
theorem abandonClaim_replay {claim : AssignmentClaim} (now : Instant) (day : Instant × Instant)
    (limit : ℕ) (user : UserId)
    (hclaim : db.claims.get id = some claim) (hreplay : claim.status = .abandoned) :
    (abandonClaim db now day limit user id = .ok (claim, db) ∧ claim.userId = user) ∨
      ∃ e, abandonClaim db now day limit user id = .error e ∧
        ∀ start stop, e ≠ .abandonLimitReached limit start stop := by
  unfold abandonClaim requireActiveStudent
  rw [hclaim]
  cases db.users.get user with
  | none => exact Or.inr ⟨_, rfl, fun _ _ h => by cases h⟩
  | some account =>
    by_cases hrole : account.role = .student
    · by_cases hstatus : account.status = .active
      · by_cases howner : claim.userId = user
        · refine Or.inl ⟨?_, howner⟩
          simp [orRefuse, ensure, hrole, hstatus, howner, hreplay, bind, Except.bind, pure,
            Except.pure]
        · refine Or.inr ⟨.claimNotOwned id user, ?_, fun _ _ h => by cases h⟩
          simp [orRefuse, ensure, hrole, hstatus, howner, bind, Except.bind]
      · refine Or.inr ⟨.accountNotActive user, ?_, fun _ _ h => by cases h⟩
        simp [orRefuse, ensure, hrole, hstatus, bind, Except.bind]
    · refine Or.inr ⟨.claimerNotStudent user account.role, ?_, fun _ _ h => by cases h⟩
      simp [orRefuse, ensure, hrole, bind, Except.bind]

end Cap

/-- What sessions do to claims: abandon one, or move one as every other service does, which
locks the row, leaves an abandoned claim alone and abandons none. -/
inductive Call
  | abandon (now : Instant) (user : UserId) (id : ClaimId)
  | other (id : ClaimId) (row : AssignmentClaim)
  | account (user : UserId) (row : Account)

def program (zone : Zone) (limit : ℕ) : Call → AbandonTxn (Option AssignmentClaim)
  | .abandon now user id => do
    return some (← abandonStatements zone limit now user id)
  | .other id row => do
    lock (.claim id)
    let old ← ask (.claim id)
    if row.status = .abandoned ∨ old.any (·.status = .abandoned) = true then return none
    else do
      write (.claim id row)
      return none
  | .account user row => do
    write (.account user row)
    return none

def service (zone : Zone) (limit : ℕ) :
    Service statements Call LifecycleError (Option AssignmentClaim) :=
  ⟨program zone limit⟩

section System

variable {zone : Zone} {limit : ℕ} {db : Db} {p : Pending statements}

/-- What a committed call that is no abandon does: it changes no abandon of anybody. -/
theorem program_other {call : Call} {r : Option AssignmentClaim}
    (hother : ∀ now user id, call ≠ .abandon now user id)
    (h : (program zone limit call).Ends locking db .start (.ok r) p) :
    (∀ u c, abandonedAt u ((p.view db).claims.get c) = abandonedAt u (db.claims.get c)) ∧
      Covered p db := by
  cases call with
  | abandon now user id => exact absurd rfl (hother now user id)
  | account user row =>
    unfold program at h
    rw [ends_write] at h
    obtain ⟨_, rfl⟩ := ends_pure.mp h
    refine ⟨fun u c => rfl, fun w hw => ?_⟩
    rw [List.mem_singleton.mp hw]
    trivial
  | other id row =>
    unfold program at h
    rw [ends_lock, ends_ask] at h
    obtain ⟨old, hold, h⟩ := h
    have hold : db.claims.get id = old := hold List.mem_cons_self
    split at h
    next =>
      obtain ⟨_, rfl⟩ := ends_pure.mp h
      exact ⟨fun u c => rfl, covered_of_no_writes rfl⟩
    next hquiet =>
      rw [ends_write] at h
      obtain ⟨_, rfl⟩ := ends_pure.mp h
      obtain ⟨hrow, hkept⟩ := not_or.mp hquiet
      have hsame : ∀ u, abandonedAt u (some row) = abandonedAt u (db.claims.get id) := by
        intro u
        rw [abandonedAt_of_status hrow, hold]
        cases old with
        | none => rfl
        | some claim =>
          rw [abandonedAt_of_status]
          intro hstatus
          exact hkept (by simp [hstatus])
      refine ⟨fun u c => ?_, fun w hw => ?_⟩
      · change abandonedAt u ((db.claims.put id row).get c) = _
        rcases Table.get_put_cases db.claims id c row with heq | ⟨rfl, heq⟩
        · rw [heq]
        · rw [heq]
          exact hsame u
      · rw [List.mem_singleton.mp hw]
        exact fun u _ => hsame u

theorem service_sound : (service zone limit).Sound locking fun _ => True where
  covered c db a p _ h := by
    cases c with
    | abandon now user id =>
      rcases Txn.ends_bind.mp h with ⟨_, p₁, habandon, hrest⟩ | ⟨_, _, he⟩
      · obtain ⟨_, rfl⟩ := hrest
        rcases abandonStatements_ends habandon with ⟨_, _, _, _, _, hcovered⟩ | ⟨_, _, he⟩
        · exact hcovered
        · cases he
      · cases he
    | other id row =>
      have h : (program zone limit (.other id row)).Ends locking db .start (.ok a) p := h
      refine (program_other ?_ h).2
      intro _ _ _ heq
      cases heq
    | account user row =>
      have h : (program zone limit (.account user row)).Ends locking db .start (.ok a) p := h
      refine (program_other ?_ h).2
      intro _ _ _ heq
      cases heq
  keeps _ _ _ _ _ _ := trivial

def AbandonEnds (zone : Zone) (limit : ℕ) (now : Instant) (user : UserId) (id : ClaimId)
    (db db' : Db) (r : Except LifecycleError (Option AssignmentClaim)) : Prop :=
  (∃ row, abandonClaim db now (businessDayWindow zone now) limit user id = .ok (row, db') ∧
    r = .ok (some row)) ∨
  ∃ e, abandonClaim db now (businessDayWindow zone now) limit user id = .error e ∧
    r = .error e ∧ db' = db

theorem abandon_ends {now : Instant} {user : UserId} {id : ClaimId} {db' : Db}
    {r : Except LifecycleError (Option AssignmentClaim)}
    (h : (program zone limit (.abandon now user id)).Ends locking db .start r p)
    (hstore : (∃ a, r = .ok a ∧ db' = p.view db) ∨ (∃ e, r = .error e ∧ db' = db)) :
    AbandonEnds zone limit now user id db db' r := by
  rcases Txn.ends_bind.mp h with ⟨row, p₁, habandon, hrest⟩ | ⟨err, habandon, rfl⟩
  · obtain ⟨rfl, rfl⟩ := hrest
    rcases hstore with ⟨_, _, rfl⟩ | ⟨_, hr, _⟩
    · rcases abandonStatements_ends habandon with ⟨row', db', hatomic, hr, hview, _⟩ | ⟨_, _, he⟩
      · cases hr
        rw [hview]
        exact Or.inl ⟨row, hatomic, rfl⟩
      · cases he
    · cases hr
  · rcases hstore with ⟨_, hr, _⟩ | ⟨_, _, rfl⟩
    · cases hr
    · rcases abandonStatements_ends habandon with ⟨_, _, _, hr, _⟩ | ⟨e, hatomic, hr⟩
      · cases hr
      · cases hr
        exact Or.inr ⟨err, hatomic, rfl, rfl⟩

/-- The interleaved system of any number of sessions, from tables within the cap. -/
abbrev system (zone : Zone) (limit : ℕ) (ι : Type) [DecidableEq ι] :=
  (service zone limit).system locking ι (Capped zone limit)

def OnNaturalDay (zone : Zone) {ι : Type}
    (_ : Config ι Db (Session statements Call LifecycleError (Option AssignmentClaim)))
    (a : Move ι (Call × Option AssignmentClaim)) : Prop :=
  ∀ now user id r, a.2 = some (.abandon now user id, r) → NaturalDay zone now

/-- The cap holds in every state of a run whose abandons are all on natural days. -/
theorem capped_reach {ι : Type} [DecidableEq ι]
    {c : Config ι Db (Session statements Call LifecycleError (Option AssignmentClaim))}
    (hc : ((system zone limit ι).guarded (OnNaturalDay zone)).Reach c) :
    Capped zone limit c.store := by
  induction hc with
  | init h => exact h.1
  | @step c c' a hs hstep ih =>
    obtain ⟨hstep, hday⟩ := hstep
    rcases service_sound.store_step (fun _ _ => trivial) (System.Reach.of_guarded hs) hstep with
      hsame | ⟨⟨call, r⟩, hlabel, p, hends, hstore⟩
    · rw [hsame]
      exact ih
    · rw [hstore]
      cases call with
      | abandon now user id =>
        rcases abandon_ends hends (Or.inl ⟨r, rfl, rfl⟩) with ⟨row, hatomic, _⟩ | ⟨_, _, hr, _⟩
        · exact ih.abandon (hday now user id r hlabel) hatomic
        · cases hr
      | other id row =>
        have hends : (program zone limit (.other id row)).Ends locking c.store .start (.ok r) p := hends
        refine ih.congr (program_other ?_ hends).1
        intro _ _ _ heq
        cases heq
      | account user row =>
        have hends : (program zone limit (.account user row)).Ends locking c.store .start (.ok r) p := hends
        refine ih.congr (program_other ?_ hends).1
        intro _ _ _ heq
        cases heq

/-- The daily cap in every interleaving. While every abandon commits on a natural day, no
business day ever counts more abandons of a user than the limit; an abandon that comes to an
abandoned claim again changes nothing and is not judged by the cap; and all days are natural
where the timezone moves no clock across a local midnight. -/
theorem daily_abandon_cap {ι : Type} [DecidableEq ι] (zone : Zone) (limit : ℕ) :
    (∀ c, ((system zone limit ι).guarded (OnNaturalDay zone)).Reach c →
      Capped zone limit c.store) ∧
    (∀ c, (system zone limit ι).Reach c → ∀ i l c', (system zone limit ι).step c (i, l) c' →
      ∀ now user id r, c'.proc i = .ended (.abandon now user id) r →
        AbandonEnds zone limit now user id c.store c'.store r ∧
        ∀ claim, c.store.claims.get id = some claim → claim.status = .abandoned →
          c'.store = c.store ∧ (r = .ok (some claim) ∨
            ∃ e, r = .error e ∧ ∀ start stop, e ≠ .abandonLimitReached limit start stop)) ∧
    ((∀ date, ¬ zone.Crossed (date * dayLength)) → ∀ now, NaturalDay zone now) := by
  refine ⟨fun c hc => capped_reach hc, fun c hc i l c' hstep now user id r hended => ?_,
    naturalDay_of_uncrossed⟩
  obtain ⟨p, hends, hstore⟩ := service_sound.ends (fun _ _ => trivial) hc hstep hended
  have habandon := abandon_ends hends hstore
  refine ⟨habandon, fun claim hclaim hreplay => ?_⟩
  have hagain := abandonClaim_replay now (businessDayWindow zone now) limit user hclaim
    hreplay
  rcases habandon with ⟨row, hatomic, hr⟩ | ⟨e, hatomic, hr, hsame⟩
  · rcases hagain with ⟨hok, _⟩ | ⟨_, herror, _⟩
    · obtain ⟨hrow, hsame⟩ := Prod.mk.inj (Except.ok.inj (hatomic.symm.trans hok))
      rw [hr, hrow]
      exact ⟨hsame, Or.inl rfl⟩
    · rw [hatomic] at herror
      cases herror
  · rcases hagain with ⟨hok, _⟩ | ⟨_, herror, hother⟩
    · rw [hatomic] at hok
      cases hok
    · rw [hatomic] at herror
      cases herror
      exact ⟨hsame, Or.inr ⟨e, hr, hother⟩⟩

end System

theorem capped_of_no_claims {zone : Zone} {limit : ℕ} {db : Db} (h : db.claims = .empty) :
    Capped zone limit db := by
  intro user t
  unfold Db.abandonsBetween
  rw [h]
  exact Nat.zero_le _

section Lifecycle

variable {s : State} {op : Op}

end Lifecycle

/-- St. John's in 2006: daylight time from the first minute of April 2nd to the first minute of
October 29th, when the clock went back into October 28th. -/
def newfoundland : Zone where
  offset := -minutes 210
  changes := [⟨minutes 19065811, -minutes 150⟩, ⟨minutes 19368151, -minutes 210⟩]
  ordered := by decide

def studentClaim (task : TaskId) : AssignmentClaim :=
  newClaim task task (weekTask 50 base_pos) 7 0 ⟨minutes 20000000, minutes 20000000⟩

/-- Three abandons in the hour of October 28th that the clock shows again. -/
def repeatedHour : List Call :=
  [.other 1 (studentClaim 1), .other 2 (studentClaim 2), .other 3 (studentClaim 3),
    .abandon (minutes 19368161) 7 1, .abandon (minutes 19368171) 7 2,
    .abandon (minutes 19368181) 7 3]

/-- Midnight had struck before the clock went back, so the window of October 28th ends before
these abandons, which all lie in the window of October 29th. -/
theorem repeated_hour_uncapped :
    ¬ ∀ zone limit c, (system zone limit Unit).Reach c → Capped zone limit c.store := by
  intro h
  have hstart : (system newfoundland 2 Unit).Reach ⟨(opening 50 (by decide)).db, fun _ => .idle⟩ :=
    .init ⟨capped_of_no_claims rfl, fun _ => rfl⟩
  have hreach := Service.reach_serially repeatedHour hstart (fun _ _ _ _ hrun => by cases hrun)
  have hcap := h newfoundland 2 _ hreach 7 (minutes 19368751)
  exact absurd hcap (by decide +kernel)

end CampusQuest.Lifecycle.Abandoning
