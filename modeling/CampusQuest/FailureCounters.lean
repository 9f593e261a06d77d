import CampusQuest.Runs
import CampusQuest.IdentityRows

/-!
The login failure counters. Counting a failure and arming the expiry of a new counter are
two Redis commands of one call, and the second is sent only when the first one answered 1.
A counter keeps its time limit exactly while no call dies between the two, no time passes
between them, and no expiry of an earlier burst reaches a counter of a later one.
-/

namespace CampusQuest.Identity

open Runs

def LOCK_THRESHOLD : ℕ := 5

def LOCK_TTL_SECONDS : ℕ := 900

/-- The lock time in milliseconds, the unit in which Redis keeps an expiry. -/
@[irreducible]
def lockTtlMillis : ℕ := LOCK_TTL_SECONDS * 1000

theorem lockTtlMillis_eq : LOCK_TTL_SECONDS * 1000 = lockTtlMillis := by
  rw [lockTtlMillis]

theorem lockTtlMillis_value : lockTtlMillis = 900000 := by
  rw [← lockTtlMillis_eq]
  rfl

/-- The value under `login:fail:{user_id}` and the millisecond at which the key lapses. -/
structure FailureCounter where
  count : ℕ
  expiresAt : Option ℕ

/-- The counters at one millisecond. `firstFailureAt` is a history: the time at which the
last counter of an account was created, which is the first failure of its burst. -/
structure CounterStore where
  now : ℕ
  counters : UserId → Option FailureCounter
  firstFailureAt : UserId → ℕ

namespace CounterStore

variable (s : CounterStore) (user : UserId)

/-- `INCR` leaves the expiry of a key that exists, and a key that it creates has none. -/
def incr : CounterStore × ℕ :=
  match s.counters user with
  | some c =>
    ({ s with counters := Function.update s.counters user (some { c with count := c.count + 1 }) },
      c.count + 1)
  | none =>
    ({ s with
        counters := Function.update s.counters user (some ⟨1, none⟩)
        firstFailureAt := Function.update s.firstFailureAt user s.now }, 1)

/-- `EXPIRE` sets the expiry of a key that exists. -/
def expire (seconds : ℕ) : CounterStore :=
  { s with
    counters := Function.update s.counters user ((s.counters user).map fun c =>
      { c with expiresAt := some (s.now + seconds * 1000) }) }

def delete : CounterStore :=
  { s with counters := Function.update s.counters user none }

/-- Time passes and the keys whose expiry has come are gone. -/
def elapse (d : ℕ) : CounterStore :=
  { s with
    now := s.now + d
    counters := fun u => (s.counters u).filter fun c => c.expiresAt.all fun t => s.now + d < t }

/-- `TTL`: -2 without the key, -1 without an expiry, else the rest in rounded seconds. -/
def ttl : ℤ :=
  match s.counters user with
  | none => -2
  | some c =>
    match c.expiresAt with
    | none => -1
    | some t => ((t - s.now + 500) / 1000 : ℕ)

def isLocked : Bool :=
  match s.counters user with
  | none => false
  | some c => LOCK_THRESHOLD ≤ c.count

/-- `retry_after_seconds`, whose `TTL` may see a later store than its `GET`. -/
def retryAfterSeconds (later : CounterStore) : Option ℤ :=
  if s.isLocked user then
    if later.ttl user ≤ 0 then none else some (later.ttl user)
  else none

end CounterStore

/-- A client of the guard: `counted` is `record_failure` with the answer of its `INCR`. -/
inductive GuardCall
  | idle
  | counted (user : UserId) (count : ℕ)

open GuardCall

structure GuardWorld where
  store : CounterStore
  calls : ℕ → GuardCall

inductive GuardEvent
  | count (i : ℕ) (user : UserId)
  | arm (i : ℕ)
  | finish (i : ℕ)
  | crash (i : ℕ)
  | reset (i : ℕ) (user : UserId)
  | elapse (d : ℕ)

/-- One Redis command of one client, the end or the death of a call, or the passing of time. -/
inductive GuardStep (w : GuardWorld) : GuardEvent → GuardWorld → Prop
  | count (i : ℕ) (user : UserId) (hidle : w.calls i = idle) :
      GuardStep w (.count i user)
        ⟨(w.store.incr user).1, Function.update w.calls i (counted user (w.store.incr user).2)⟩
  | arm (i : ℕ) (user : UserId) (hcall : w.calls i = counted user 1) :
      GuardStep w (.arm i)
        ⟨w.store.expire user LOCK_TTL_SECONDS, Function.update w.calls i idle⟩
  | finish (i : ℕ) (user : UserId) (n : ℕ) (hcall : w.calls i = counted user n) (hn : n ≠ 1) :
      GuardStep w (.finish i) ⟨w.store, Function.update w.calls i idle⟩
  | crash (i : ℕ) : GuardStep w (.crash i) ⟨w.store, Function.update w.calls i idle⟩
  | reset (i : ℕ) (user : UserId) (hidle : w.calls i = idle) :
      GuardStep w (.reset i user) ⟨w.store.delete user, w.calls⟩
  | elapse (d : ℕ) : GuardStep w (.elapse d) ⟨w.store.elapse d, w.calls⟩

/-- Any number of clients, from the first state in which there is no counter. -/
def guardSystem : System GuardWorld GuardEvent where
  init w := (∀ user, w.store.counters user = none) ∧ ∀ i, w.calls i = idle
  step := GuardStep

namespace GuardWorld

variable (w : GuardWorld)

def Arming (user : UserId) : Prop := ∃ i, w.calls i = counted user 1

/-- The expiry of the counter is armed in time, or it is about to be armed at the very
millisecond of the first failure. -/
def InTime (user : UserId) (c : FailureCounter) : Prop :=
  (∃ t, c.expiresAt = some t ∧ t ≤ w.store.firstFailureAt user + lockTtlMillis) ∨
    (c.expiresAt = none ∧ w.store.now = w.store.firstFailureAt user ∧ w.Arming user)

def CountersExpire : Prop :=
  ∀ user c, w.store.counters user = some c → w.InTime user c

/-- A counter has counted its first failure in the past and its expiry is still to come. -/
structure CountersSane : Prop where
  counted : ∀ user c, w.store.counters user = some c → 1 ≤ c.count
  first_le : ∀ user c, w.store.counters user = some c →
    w.store.firstFailureAt user ≤ w.store.now
  pending : ∀ user c t, w.store.counters user = some c → c.expiresAt = some t → w.store.now < t

/-- The condition on a step: an `EXPIRE` meets only a counter of the same millisecond, a call
that dies leaves no counter unarmed, and no time passes while a counter is unarmed. -/
def OnTime : GuardEvent → Prop
  | .arm i => ∀ user c, w.calls i = counted user 1 → w.store.counters user = some c →
      w.store.now = w.store.firstFailureAt user
  | .crash i => ∀ user c, w.calls i = counted user 1 → w.store.counters user = some c →
      c.expiresAt = none → ∃ j, j ≠ i ∧ w.calls j = counted user 1
  | .elapse d => 0 < d → ∀ user c, w.store.counters user = some c → c.expiresAt ≠ none
  | _ => True

end GuardWorld

namespace CounterStore

variable {s : CounterStore} {user u : UserId} {c : FailureCounter}

theorem incr_of_some (h : s.counters user = some c) :
    s.incr user =
      ({ s with counters := Function.update s.counters user (some { c with count := c.count + 1 }) },
        c.count + 1) := by
  simp only [incr, h]

theorem incr_of_none (h : s.counters user = none) :
    s.incr user =
      ({ s with
          counters := Function.update s.counters user (some ⟨1, none⟩)
          firstFailureAt := Function.update s.firstFailureAt user s.now }, 1) := by
  simp only [incr, h]

@[simp]
theorem incr_now : (s.incr user).1.now = s.now := by
  cases h : s.counters user with
  | none => rw [incr_of_none h]
  | some c => rw [incr_of_some h]

theorem incr_other (h : u ≠ user) :
    (s.incr user).1.counters u = s.counters u ∧
      (s.incr user).1.firstFailureAt u = s.firstFailureAt u := by
  cases hget : s.counters user with
  | none => simp [incr_of_none hget, h]
  | some c => simp [incr_of_some hget, h]

/-- What `INCR` leaves under its key: a new counter of this millisecond, or the old one with
its expiry and the time of its first failure. -/
theorem incr_self (h : (s.incr user).1.counters user = some c) :
    (s.counters user = none ∧ c = ⟨1, none⟩ ∧ (s.incr user).2 = 1 ∧
      (s.incr user).1.firstFailureAt user = s.now) ∨
    ∃ old, s.counters user = some old ∧ c = { old with count := old.count + 1 } ∧
      (s.incr user).1.firstFailureAt user = s.firstFailureAt user := by
  cases hget : s.counters user with
  | none =>
    rw [incr_of_none hget] at h ⊢
    refine .inl ⟨rfl, ?_, rfl, by simp⟩
    simpa using h.symm
  | some old =>
    rw [incr_of_some hget] at h ⊢
    refine .inr ⟨old, rfl, ?_, rfl⟩
    simpa using h.symm

theorem expire_of_some (seconds : ℕ) (h : s.counters user = some c) :
    (s.expire user seconds).counters user =
      some { c with expiresAt := some (s.now + seconds * 1000) } := by
  simp [expire, h]

theorem expire_self (seconds : ℕ) (h : (s.expire user seconds).counters user = some c) :
    ∃ old, s.counters user = some old ∧
      c = { old with expiresAt := some (s.now + seconds * 1000) } := by
  simp only [expire, Function.update_self, Option.map_eq_some_iff] at h
  obtain ⟨old, hold, hc⟩ := h
  exact ⟨old, hold, hc.symm⟩

theorem expire_other (seconds : ℕ) (h : u ≠ user) :
    (s.expire user seconds).counters u = s.counters u := by
  simp [expire, h]

theorem delete_some (h : (s.delete user).counters u = some c) : s.counters u = some c := by
  by_cases hu : u = user
  · subst hu
    simp [delete] at h
  · simpa [delete, hu] using h

theorem elapse_some {d : ℕ} : (s.elapse d).counters u = some c ↔
    s.counters u = some c ∧ ∀ t, c.expiresAt = some t → s.now + d < t := by
  simp only [elapse, Option.filter_eq_some_iff, Option.all_eq_true, decide_eq_true_eq]

end CounterStore

section Sane

variable {w w' : GuardWorld} {ev : GuardEvent}

open CounterStore

theorem sane_step (hw : w.CountersSane) (hstep : GuardStep w ev w') : w'.CountersSane := by
  cases hstep with
  | count i user hidle =>
    refine ⟨fun u c hget => ?_, fun u c hget => ?_, fun u c t hget ht => ?_⟩
    · by_cases hu : u = user
      · subst hu
        rcases incr_self hget with ⟨_, rfl, _⟩ | ⟨old, _, rfl, _⟩
        · exact Nat.le_refl 1
        · exact Nat.le_add_left 1 _
      · dsimp only at hget
        rw [(incr_other hu).1] at hget
        exact hw.counted u c hget
    · by_cases hu : u = user
      · subst hu
        dsimp only
        rw [incr_now]
        rcases incr_self hget with ⟨_, _, _, hfirst⟩ | ⟨old, hold, _, hfirst⟩
        · omega
        · have hle := hw.first_le u old hold
          omega
      · dsimp only at hget ⊢
        rw [(incr_other hu).1] at hget
        rw [(incr_other hu).2, incr_now]
        exact hw.first_le u c hget
    · dsimp only
      rw [incr_now]
      by_cases hu : u = user
      · subst hu
        rcases incr_self hget with ⟨_, rfl, _⟩ | ⟨old, hold, rfl, _⟩
        · simp at ht
        · exact hw.pending u old t hold ht
      · dsimp only at hget
        rw [(incr_other hu).1] at hget
        exact hw.pending u c t hget ht
  | arm i user hcall =>
    refine ⟨fun u c hget => ?_, fun u c hget => ?_, fun u c t hget ht => ?_⟩
    · by_cases hu : u = user
      · subst hu
        obtain ⟨old, hold, rfl⟩ := expire_self _ hget
        exact hw.counted u old hold
      · dsimp only at hget
        rw [expire_other _ hu] at hget
        exact hw.counted u c hget
    · by_cases hu : u = user
      · subst hu
        obtain ⟨old, hold, _⟩ := expire_self _ hget
        exact hw.first_le u old hold
      · dsimp only at hget
        rw [expire_other _ hu] at hget
        exact hw.first_le u c hget
    · by_cases hu : u = user
      · subst hu
        obtain ⟨old, _, rfl⟩ := expire_self _ hget
        simp only [Option.some.injEq, LOCK_TTL_SECONDS] at ht
        show w.store.now < t
        omega
      · dsimp only at hget
        rw [expire_other _ hu] at hget
        exact hw.pending u c t hget ht
  | finish i user n hcall hn => exact ⟨hw.counted, hw.first_le, hw.pending⟩
  | crash i => exact ⟨hw.counted, hw.first_le, hw.pending⟩
  | reset i user hidle =>
    exact ⟨fun u c hget => hw.counted u c (delete_some hget),
      fun u c hget => hw.first_le u c (delete_some hget),
      fun u c t hget => hw.pending u c t (delete_some hget)⟩
  | elapse d =>
    refine ⟨fun u c hget => ?_, fun u c hget => ?_, fun u c t hget ht => ?_⟩
    · exact hw.counted u c (elapse_some.mp hget).1
    · have hle := hw.first_le u c (elapse_some.mp hget).1
      show w.store.firstFailureAt u ≤ w.store.now + d
      omega
    · exact (elapse_some.mp hget).2 t ht

theorem sane_inductive : guardSystem.Inductive GuardWorld.CountersSane := by
  constructor
  · rintro w ⟨hempty, _⟩
    refine ⟨fun u c hget => ?_, fun u c hget => ?_, fun u c t hget => ?_⟩
    all_goals simp [hempty u] at hget
  · intro w ev w' hw hstep
    exact sane_step hw hstep

end Sane

section Timing

variable {w w' : GuardWorld} {ev : GuardEvent}

open CounterStore

/-- Another client keeps a call that is about to arm the counter. -/
theorem arming_update {i : ℕ} {m : GuardCall} {user : UserId} (h : w.Arming user)
    (hi : w.calls i = counted user 1 → m = counted user 1) :
    ∃ j, Function.update w.calls i m j = counted user 1 := by
  obtain ⟨j, hj⟩ := h
  by_cases hji : j = i
  · subst hji
    exact ⟨j, by rw [Function.update_self]; exact hi hj⟩
  · exact ⟨j, by rw [Function.update_of_ne hji]; exact hj⟩

theorem count_inTime {i : ℕ} {user : UserId} (hidle : w.calls i = idle) (hP : w.CountersExpire) :
    GuardWorld.CountersExpire
      ⟨(w.store.incr user).1, Function.update w.calls i (counted user (w.store.incr user).2)⟩ := by
  have hkeep : ∀ u, w.Arming u →
      ∃ j, Function.update w.calls i (counted user (w.store.incr user).2) j = counted u 1 := by
    intro u hu
    refine arming_update hu fun hi => ?_
    rw [hidle] at hi
    cases hi
  intro u c hget
  by_cases hu : u = user
  · subst hu
    rcases incr_self hget with ⟨_, rfl, hone, hfirst⟩ | ⟨old, hold, rfl, hfirst⟩
    · -- the answer 1 makes this call the one that arms the new counter
      exact .inr ⟨rfl, by rw [hfirst, incr_now], i, by
        dsimp only
        rw [Function.update_self, hone]⟩
    · rcases hP u old hold with ⟨t, ht, hle⟩ | ⟨hnone, hnow, harming⟩
      · exact .inl ⟨t, ht, by rw [hfirst]; exact hle⟩
      · exact .inr ⟨hnone, by rw [hfirst, incr_now]; exact hnow, hkeep u harming⟩
  · dsimp only at hget
    rw [(incr_other hu).1] at hget
    rcases hP u c hget with ⟨t, ht, hle⟩ | ⟨hnone, hnow, harming⟩
    · exact .inl ⟨t, ht, by rw [(incr_other hu).2]; exact hle⟩
    · exact .inr ⟨hnone, by rw [(incr_other hu).2, incr_now]; exact hnow, hkeep u harming⟩

theorem arm_inTime_iff {i : ℕ} {user : UserId} (hw : w.CountersSane)
    (hcall : w.calls i = counted user 1) (hP : w.CountersExpire) :
    GuardWorld.CountersExpire
      ⟨w.store.expire user LOCK_TTL_SECONDS, Function.update w.calls i idle⟩ ↔
      w.OnTime (.arm i) := by
  constructor
  · intro hP' u c hu hget
    have huser : user = u := by
      rw [hcall] at hu
      injection hu
    subst huser
    have hle := hw.first_le user c hget
    rcases hP' user _ (expire_of_some LOCK_TTL_SECONDS hget) with ⟨t, ht, hbound⟩ | ⟨hnone, _⟩
    · have hbound : t ≤ w.store.firstFailureAt user + lockTtlMillis := hbound
      injection ht with ht
      rw [lockTtlMillis_eq] at ht
      omega
    · cases hnone
  · intro hon u c hget
    by_cases hu : u = user
    · subst hu
      obtain ⟨old, hold, rfl⟩ := expire_self _ hget
      have hnow := hon u old hcall hold
      refine .inl ⟨_, rfl, ?_⟩
      dsimp only [CounterStore.expire]
      rw [hnow, lockTtlMillis_eq]
    · dsimp only at hget
      rw [expire_other _ hu] at hget
      rcases hP u c hget with hin | ⟨hnone, hnow, harming⟩
      · exact .inl hin
      · refine .inr ⟨hnone, hnow, arming_update harming fun hi => ?_⟩
        rw [hcall] at hi
        injection hi with huser
        exact absurd huser.symm hu

theorem crash_inTime_iff {i : ℕ} (hP : w.CountersExpire) :
    GuardWorld.CountersExpire ⟨w.store, Function.update w.calls i idle⟩ ↔
      w.OnTime (.crash i) := by
  constructor
  · intro hP' u c hcall hget hnone
    rcases hP' u c hget with ⟨t, ht, _⟩ | ⟨_, _, j, hj⟩
    · rw [hnone] at ht
      cases ht
    · dsimp only at hj
      by_cases hji : j = i
      · subst hji
        rw [Function.update_self] at hj
        cases hj
      · exact ⟨j, hji, by rwa [Function.update_of_ne hji] at hj⟩
  · intro hon u c hget
    rcases hP u c hget with hin | ⟨hnone, hnow, j, hj⟩
    · exact .inl hin
    · by_cases hji : j = i
      · subst hji
        obtain ⟨j', hne, hj'⟩ := hon u c hj hget hnone
        exact .inr ⟨hnone, hnow, j', (Function.update_of_ne hne _ _).trans hj'⟩
      · exact .inr ⟨hnone, hnow, j, (Function.update_of_ne hji _ _).trans hj⟩

theorem elapse_inTime_iff {d : ℕ} (hw : w.CountersSane) (hP : w.CountersExpire) :
    GuardWorld.CountersExpire ⟨w.store.elapse d, w.calls⟩ ↔ w.OnTime (.elapse d) := by
  constructor
  · intro hP' hd u c hget hnone
    have hkept : (w.store.elapse d).counters u = some c := by
      refine elapse_some.mpr ⟨hget, fun t ht => ?_⟩
      rw [hnone] at ht
      cases ht
    have hle := hw.first_le u c hget
    rcases hP' u c hkept with ⟨t, ht, _⟩ | ⟨_, hnow, _⟩
    · rw [hnone] at ht
      cases ht
    · have hnow : w.store.now + d = w.store.firstFailureAt u := hnow
      omega
  · intro hon u c hget
    have hold := (elapse_some.mp hget).1
    rcases hP u c hold with hin | ⟨hnone, hnow, harming⟩
    · exact .inl hin
    · by_cases hd : 0 < d
      · exact absurd hnone (hon hd u c hold)
      · refine .inr ⟨hnone, ?_, harming⟩
        show w.store.now + d = w.store.firstFailureAt u
        omega

/-- A step keeps every counter in time exactly when it is on time itself. -/
theorem countersExpire_step_iff (hw : w.CountersSane) (hP : w.CountersExpire)
    (hstep : GuardStep w ev w') : w'.CountersExpire ↔ w.OnTime ev := by
  cases hstep with
  | count i user hidle => exact iff_of_true (count_inTime hidle hP) trivial
  | arm i user hcall => exact arm_inTime_iff hw hcall hP
  | finish i user n hcall hn =>
    refine iff_of_true (fun u c hget => ?_) trivial
    rcases hP u c hget with hin | ⟨hnone, hnow, harming⟩
    · exact .inl hin
    · refine .inr ⟨hnone, hnow, arming_update harming fun hi => ?_⟩
      rw [hcall] at hi
      injection hi with _ hone
      exact absurd hone hn
  | crash i => exact crash_inTime_iff hP
  | reset i user hidle =>
    exact iff_of_true (fun u c hget => hP u c (delete_some hget)) trivial
  | elapse d => exact elapse_inTime_iff hw hP

/-- While the counters are in time no account is locked past its lock time. -/
theorem lock_dissolves (hw : w.CountersSane) (hP : w.CountersExpire) {user : UserId}
    (hlocked : w.store.isLocked user = true) :
    w.store.now < w.store.firstFailureAt user + lockTtlMillis := by
  cases hget : w.store.counters user with
  | none => simp [isLocked, hget] at hlocked
  | some c =>
    rcases hP user c hget with ⟨t, ht, hle⟩ | ⟨_, hnow, _⟩
    · have hlt := hw.pending user c t hget ht
      omega
    · have hvalue := lockTtlMillis_value
      omega

/-- The hint of a locked account is a positive number of seconds, at most the lock time, when
the `TTL` sees a store whose counters are in time. -/
theorem retryAfter_bounds {earlier : CounterStore} (hw : w.CountersSane) (hP : w.CountersExpire)
    {user : UserId} {n : ℤ} (h : earlier.retryAfterSeconds user w.store = some n) :
    0 < n ∧ n ≤ LOCK_TTL_SECONDS := by
  unfold retryAfterSeconds at h
  split at h
  · split at h
    · cases h
    · rename_i hpos
      injection h with h
      refine ⟨by omega, ?_⟩
      cases hget : w.store.counters user with
      | none => simp [ttl, hget] at h; omega
      | some c =>
        have hfirst := hw.first_le user c hget
        rcases hP user c hget with ⟨t, ht, hle⟩ | ⟨hnone, _⟩
        · simp only [ttl, hget, ht] at h
          have hvalue := lockTtlMillis_value
          simp only [LOCK_TTL_SECONDS]
          omega
        · simp [ttl, hget, hnone] at h
          omega
  · cases h

end Timing

/-- The counters of every visited state are in time, so that no account is locked when its
lock time is over, exactly when every step of the run is on time. -/
theorem lockout_counters_expire {w w' : GuardWorld} {l : List (GuardWorld × GuardEvent × GuardWorld)}
    (hw : guardSystem.init w) (hrun : guardSystem.Run w l w') :
    ((∀ e ∈ l, e.2.2.CountersExpire) ↔ ∀ e ∈ l, e.1.OnTime e.2.1) ∧
      ((∀ e ∈ l, e.1.OnTime e.2.1) → ∀ e ∈ l, ∀ user, e.2.2.store.isLocked user = true →
        e.2.2.store.now < e.2.2.store.firstFailureAt user + lockTtlMillis) := by
  have hreach : guardSystem.Reach w := .init hw
  have hempty : w.CountersExpire := by
    intro user c hget
    simp [hw.1 user] at hget
  have hiff : (∀ e ∈ l, e.2.2.CountersExpire) ↔ ∀ e ∈ l, e.1.OnTime e.2.1 := by
    refine hrun.keeps_iff (fun s a s' hs hP hstep => ?_) hreach hempty
    exact countersExpire_step_iff (sane_inductive.reach hs) hP hstep
  refine ⟨hiff, fun hon e he user hlocked => ?_⟩
  obtain ⟨hstep, l', hbefore⟩ := hrun.step_mem he
  have hsane := sane_inductive.reach (System.Reach.step (hbefore.reach hreach) hstep)
  exact lock_dissolves hsane (hiff.mpr hon e he) hlocked

def noFailures : GuardWorld := ⟨⟨0, fun _ => none, fun _ => 0⟩, fun _ => idle⟩

theorem noFailures_init : guardSystem.init noFailures := ⟨fun _ => rfl, fun _ => rfl⟩

def firstFailure : GuardWorld :=
  ⟨(noFailures.store.incr 1).1, Function.update noFailures.calls 0 (counted 1 1)⟩

theorem firstFailure_step : GuardStep noFailures (.count 0 1) firstFailure :=
  .count 0 1 rfl

theorem firstFailure_call : firstFailure.calls 0 = counted 1 1 := by
  simp [firstFailure]

/-- The counter of a first failure is in time when its call arms it at once. -/
theorem first_failure_expires :
    firstFailure.CountersExpire ∧
      GuardWorld.CountersExpire ⟨firstFailure.store.expire 1 LOCK_TTL_SECONDS,
        Function.update firstFailure.calls 0 idle⟩ := by
  have harm : GuardStep firstFailure (.arm 0) _ := .arm 0 1 firstFailure_call
  have hrun : guardSystem.Run noFailures _ _ := .snoc (.snoc (.nil noFailures) firstFailure_step) harm
  have hexpire := (lockout_counters_expire noFailures_init hrun).1.mpr (by
    intro e he
    simp only [List.nil_append, List.cons_append, List.mem_cons, List.not_mem_nil, or_false] at he
    rcases he with rfl | rfl
    · trivial
    · intro user c hcall _
      rw [firstFailure_call] at hcall
      injection hcall with huser
      subst huser
      simp [firstFailure, noFailures, CounterStore.incr])
  exact ⟨hexpire (noFailures, .count 0 1, firstFailure) (by simp),
    hexpire (firstFailure, .arm 0, _) (List.mem_append_right _ (List.mem_singleton_self _))⟩

/-- A failure that is counted after the first one leaves the expiry as it is. -/
theorem reach_failure {w : GuardWorld} {user : UserId} {c : FailureCounter}
    (hw : guardSystem.Reach w) (hidle : ∀ i, w.calls i = idle)
    (hget : w.store.counters user = some c) :
    ∃ w', guardSystem.Reach w' ∧ (∀ i, w'.calls i = idle) ∧
      w'.store.counters user = some { c with count := c.count + 1 } ∧
      w'.store.firstFailureAt = w.store.firstFailureAt ∧ w'.store.now = w.store.now := by
  have hcount := (sane_inductive.reach hw).counted user c hget
  have hincr := CounterStore.incr_of_some hget
  have hstep := GuardStep.count 0 user (hidle 0)
  have hcall : (Function.update w.calls 0 (counted user (w.store.incr user).2)) 0 =
      counted user (c.count + 1) := by
    rw [Function.update_self, hincr]
  have hend : GuardStep ⟨(w.store.incr user).1,
      Function.update w.calls 0 (counted user (w.store.incr user).2)⟩ (.finish 0) _ :=
    .finish 0 user (c.count + 1) hcall (by omega)
  refine ⟨_, .step (.step hw hstep) hend, fun i => ?_, ?_, ?_, ?_⟩
  · by_cases hi : i = 0
    · simp [hi]
    · simp [hi, hidle i]
  · simp [hincr]
  · simp [hincr]
  · simp [hincr]

/-- A call dies after its `INCR`, four failures follow, and the account is still locked when
the lock time is over, with nothing left that could lift the lock. -/
theorem unarmed_lock_stays :
    ∃ w, guardSystem.Reach w ∧ (∀ i, w.calls i = idle) ∧
      w.store.counters 1 = some ⟨5, none⟩ ∧ w.store.isLocked 1 = true ∧
      w.store.firstFailureAt 1 + lockTtlMillis ≤ w.store.now ∧ ¬ w.CountersExpire := by
  have hcrash : guardSystem.Reach ⟨firstFailure.store, Function.update firstFailure.calls 0 idle⟩ :=
    .step (.step (.init noFailures_init) firstFailure_step) (GuardStep.crash 0)
  have hidle : ∀ i, Function.update firstFailure.calls 0 idle i = idle := by
    intro i
    by_cases hi : i = 0
    · simp [hi]
    · simp [firstFailure, noFailures, hi]
  have hget : firstFailure.store.counters 1 = some ⟨1, none⟩ := rfl
  obtain ⟨w₂, hw₂, hidle₂, hget₂, hfirst₂, hnow₂⟩ := reach_failure hcrash hidle hget
  obtain ⟨w₃, hw₃, hidle₃, hget₃, hfirst₃, hnow₃⟩ := reach_failure hw₂ hidle₂ hget₂
  obtain ⟨w₄, hw₄, hidle₄, hget₄, hfirst₄, hnow₄⟩ := reach_failure hw₃ hidle₃ hget₃
  obtain ⟨w₅, hw₅, hidle₅, hget₅, hfirst₅, hnow₅⟩ := reach_failure hw₄ hidle₄ hget₄
  have hkept : (w₅.store.elapse lockTtlMillis).counters 1 = some ⟨5, none⟩ :=
    CounterStore.elapse_some.mpr ⟨hget₅, fun t ht => nomatch ht⟩
  have hfirst : w₅.store.firstFailureAt 1 = 0 := by
    rw [hfirst₅, hfirst₄, hfirst₃, hfirst₂]
    rfl
  have hvalue := lockTtlMillis_value
  refine ⟨⟨w₅.store.elapse lockTtlMillis, w₅.calls⟩, .step hw₅ (GuardStep.elapse _), hidle₅, hkept,
    ?_, ?_, fun hP => ?_⟩
  · simp [CounterStore.isLocked, hkept, LOCK_THRESHOLD]
  · show w₅.store.firstFailureAt 1 + lockTtlMillis ≤ w₅.store.now + lockTtlMillis
    omega
  · rcases hP 1 _ hkept with ⟨t, ht, _⟩ | ⟨_, _, i, hi⟩
    · cases ht
    · rw [hidle₅ i] at hi
      cases hi

end CampusQuest.Identity
