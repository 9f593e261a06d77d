import CampusQuest.ExpiringCounters
import CampusQuest.Runs
import CampusQuest.Vocabulary
import Mathlib.Data.Finset.Card
import Mathlib.Data.Int.Order.Basic
import Mathlib.Order.Interval.Finset.Nat
import Std.Data.String.ToInt

/-!
The request-rate limiter. A check reads the clock, counts itself under the key of its window and
sets the expiry of the counter, in three steps that other checks may come between and a crash may
end. The expiry is twice the window and runs from the first step that sets it.
-/

namespace CampusQuest.RateLimits

open Runs ExpiringCounters

/-! ### The rules -/

structure RateLimitRule where
  bucket : Text
  limit : ℕ
  windowSeconds : ℕ
  post_limit : ¬ limit < 1 := by decide
  post_window : ¬ windowSeconds < 1 := by decide

def RateLimitRule.window (rule : RateLimitRule) : Duration := rule.windowSeconds * 1000000

def ipHourlyLimit : ℕ := 50

def hourlyWindowSeconds : ℕ := 3600

def otpVerifyChallengeHourlyLimit : ℕ := 30

def rateLimitRules : List RateLimitRule :=
  [{ bucket := "auth:login".toList, limit := 10, windowSeconds := 300 },
    { bucket := "auth:login-ip".toList, limit := ipHourlyLimit,
      windowSeconds := hourlyWindowSeconds },
    { bucket := "auth:staff-login".toList, limit := 10, windowSeconds := 300 },
    { bucket := "auth:staff-login-ip".toList, limit := ipHourlyLimit,
      windowSeconds := hourlyWindowSeconds },
    { bucket := "auth:staff-email-code".toList, limit := 5, windowSeconds := 3600 },
    { bucket := "auth:staff-email-code-ip".toList, limit := ipHourlyLimit,
      windowSeconds := hourlyWindowSeconds },
    { bucket := "auth:mobile-code".toList, limit := 5, windowSeconds := 3600 },
    { bucket := "auth:mobile-code-ip".toList, limit := ipHourlyLimit,
      windowSeconds := hourlyWindowSeconds },
    { bucket := "auth:challenge".toList, limit := 5, windowSeconds := 3600 },
    { bucket := "auth:challenge-ip".toList, limit := ipHourlyLimit,
      windowSeconds := hourlyWindowSeconds },
    { bucket := "auth:challenge-totp".toList, limit := 10, windowSeconds := 300 },
    { bucket := "auth:challenge-totp-ip".toList, limit := ipHourlyLimit,
      windowSeconds := hourlyWindowSeconds },
    { bucket := "auth:register".toList, limit := 5, windowSeconds := 3600 },
    { bucket := "auth:otp-send".toList, limit := 5, windowSeconds := 3600 },
    { bucket := "auth:otp-send-ip".toList, limit := ipHourlyLimit,
      windowSeconds := hourlyWindowSeconds },
    { bucket := "auth:otp-verify".toList, limit := otpVerifyChallengeHourlyLimit,
      windowSeconds := hourlyWindowSeconds },
    { bucket := "auth:otp-verify-ip".toList, limit := ipHourlyLimit,
      windowSeconds := hourlyWindowSeconds },
    { bucket := "auth:password-reset".toList, limit := 5, windowSeconds := 3600 },
    { bucket := "me:email-verify".toList, limit := 5, windowSeconds := 3600 },
    { bucket := "me:phone-change".toList, limit := 5, windowSeconds := 3600 },
    { bucket := "auth:staff-mobile-code".toList, limit := 5, windowSeconds := 3600 },
    { bucket := "auth:staff-mobile-code-ip".toList, limit := ipHourlyLimit,
      windowSeconds := hourlyWindowSeconds },
    { bucket := "me:phone-bind".toList, limit := 5, windowSeconds := 3600 },
    { bucket := "me:avatar-upload".toList, limit := 1, windowSeconds := 600 },
    { bucket := "tasks:claim".toList, limit := 20, windowSeconds := 60 },
    { bucket := "claims:abandon".toList, limit := 10, windowSeconds := 60 },
    { bucket := "tasks:import-preview".toList, limit := 10, windowSeconds := 60 },
    { bucket := "submissions:upload-intent".toList, limit := 10, windowSeconds := 60 },
    { bucket := "comments:create".toList, limit := 10, windowSeconds := 60 },
    { bucket := "comments:edit".toList, limit := 20, windowSeconds := 60 },
    { bucket := "comments:vote".toList, limit := 30, windowSeconds := 60 },
    { bucket := "comments:reaction".toList, limit := 30, windowSeconds := 60 },
    { bucket := "comments:report".toList, limit := 5, windowSeconds := 60 },
    { bucket := "staff:invitations".toList, limit := 20, windowSeconds := 3600 },
    { bucket := "ie:talent-contacts".toList, limit := 30, windowSeconds := 60 },
    { bucket := "ie:recruitment-contacts".toList, limit := 30, windowSeconds := 60 }]

def loginFamilyBuckets : List Text :=
  ["auth:login".toList, "auth:login-ip".toList, "auth:staff-login".toList,
    "auth:staff-login-ip".toList, "auth:staff-email-code".toList, "auth:staff-email-code-ip".toList,
    "auth:challenge".toList, "auth:challenge-ip".toList, "auth:challenge-totp".toList,
    "auth:challenge-totp-ip".toList]

/-- `apply_e2e_login_relief`, on a rule of the table. -/
def RateLimitRule.relieved (rule : RateLimitRule) : RateLimitRule :=
  if loginFamilyBuckets.contains rule.bucket then
    { bucket := rule.bucket, limit := 1000, windowSeconds := 3600 }
  else rule

/-- The table of a deployment, with the relief of the login family or without. -/
def ruleTable (e2eLoginRatelimit : Bool) : List RateLimitRule :=
  if e2eLoginRatelimit then rateLimitRules.map RateLimitRule.relieved else rateLimitRules

/-! ### The checks -/

def keyPrefix : Text := "ratelimit:".toList

def ttlWindowMultiplier : ℤ := 2

def windowIndex (now : Instant) (windowSeconds : ℕ) : ℤ := now.tdiv 1000000 / windowSeconds

/-- What a counter counts: the checks of an identifier under a rule in one window. -/
structure Slot where
  rule : RateLimitRule
  identifier : Text
  index : ℤ

def Slot.key (slot : Slot) : Text :=
  keyPrefix ++ (slot.rule.bucket ++ ':' :: (slot.identifier ++ ':' :: (Int.repr slot.index).toList))

structure Check where
  rule : RateLimitRule
  identifier : Text
  readAt : Instant

def Check.slot (c : Check) : Slot :=
  ⟨c.rule, c.identifier, windowIndex c.readAt c.rule.windowSeconds⟩

/-- How far a check has come, with the answer of its increment. -/
inductive Stage
  | keyed
  | counted (count : ℕ)
  | armed (count : ℕ)
  | accepted (count : ℕ)
  | refused (count : ℕ)
  | crashed (count : Option ℕ)

namespace Stage

def count : Stage → Option ℕ
  | keyed => none
  | counted n | armed n | accepted n | refused n => some n
  | crashed n => n

def Running : Stage → Prop
  | keyed | counted _ | armed _ => True
  | _ => False

end Stage

abbrev CheckId := ℕ

/-- The counters in Redis and the checks of all workers, each under an id of its own. -/
structure Limiter where
  store : Store Text
  checks : CheckId → Option (Check × Stage)

def Limiter.enter (s : Limiter) (store : Store Text) (i : CheckId) (c : Check) (stage : Stage) :
    Limiter :=
  ⟨store, Function.update s.checks i (some (c, stage))⟩

inductive Event
  | read (i : CheckId)
  | incr (i : CheckId)
  | expire (i : CheckId)
  | answer (i : CheckId)
  | crash (i : CheckId)
  | elapse (d : ℕ)

inductive Step (rules : List RateLimitRule) (s : Limiter) : Event → Limiter → Prop
  | read (i : CheckId) (rule : RateLimitRule) (identifier : Text) (hnew : s.checks i = none)
      (hrule : rule ∈ rules) :
      Step rules s (.read i) (s.enter s.store i ⟨rule, identifier, s.store.now⟩ .keyed)
  | incr (i : CheckId) (c : Check) (h : s.checks i = some (c, .keyed)) :
      Step rules s (.incr i) (s.enter (s.store.incr c.slot.key).1 i c
        (.counted (s.store.incr c.slot.key).2))
  | expire (i : CheckId) (c : Check) (n : ℕ) (h : s.checks i = some (c, .counted n)) :
      Step rules s (.expire i) (s.enter
        (s.store.expireNx c.slot.key (c.rule.window * ttlWindowMultiplier)) i c (.armed n))
  | answer (i : CheckId) (c : Check) (n : ℕ) (h : s.checks i = some (c, .armed n)) :
      Step rules s (.answer i) (s.enter s.store i c
        (if n > c.rule.limit then .refused n else .accepted n))
  | crash (i : CheckId) (c : Check) (stage : Stage) (h : s.checks i = some (c, stage))
      (hrunning : stage.Running) :
      Step rules s (.crash i) (s.enter s.store i c (.crashed stage.count))
  | elapse (d : ℕ) : Step rules s (.elapse d) ⟨s.store.elapse d, s.checks⟩

/-- Before the first check, after the epoch. -/
structure Limiter.Initial (s : Limiter) : Prop where
  now : 0 ≤ s.store.now
  counters : ∀ key, s.store.counters key = none
  checks : ∀ i, s.checks i = none

def limiterSystem (rules : List RateLimitRule) : System Limiter Event where
  init := Limiter.Initial
  step := Step rules

def Slot.lapse (slot : Slot) : Instant := (slot.index + 2) * slot.rule.window

/-- A check counts itself before the window behind its own is over. -/
def Prompt (s : Limiter) : Event → Prop
  | .incr i => ∀ c, s.checks i = some (c, .keyed) → s.store.now < c.slot.lapse
  | _ => True

/-! ### Keys -/

section Keys

variable {slot slot' : Slot} {rules : List RateLimitRule} {relief : Bool}

/-- What stands before the first of some character is not ambiguous. -/
theorem append_cons_inj {a : Char} {x x' y y' : Text} (hx : a ∉ x) (hx' : a ∉ x')
    (h : x ++ a :: y = x' ++ a :: y') : x = x' ∧ y = y' := by
  induction x generalizing x' with
  | nil =>
    cases x' with
    | nil => exact ⟨rfl, (List.cons.inj h).2⟩
    | cons b x' => exact (hx' ((List.cons.inj h).1 ▸ List.mem_cons_self)).elim
  | cons b x ih =>
    cases x' with
    | nil => exact (hx ((List.cons.inj h).1 ▸ List.mem_cons_self)).elim
    | cons b' x' =>
      obtain ⟨rfl, hrest⟩ := List.cons.inj h
      obtain ⟨rfl, rfl⟩ := ih (List.not_mem_of_not_mem_cons hx)
        (List.not_mem_of_not_mem_cons hx') hrest
      exact ⟨rfl, rfl⟩

/-- Nor is what stands behind the last one. -/
theorem append_cons_inj_right {a : Char} {x x' y y' : Text} (hy : a ∉ y) (hy' : a ∉ y')
    (h : x ++ a :: y = x' ++ a :: y') : x = x' ∧ y = y' := by
  have hreversed := congrArg List.reverse h
  rw [List.reverse_append, List.reverse_append, List.reverse_cons, List.reverse_cons,
    List.append_assoc, List.append_assoc, List.singleton_append, List.singleton_append] at hreversed
  obtain ⟨hback, hfront⟩ := append_cons_inj (by simpa using hy) (by simpa using hy') hreversed
  exact ⟨List.reverse_injective hfront, List.reverse_injective hback⟩

theorem colon_not_mem_repr (z : ℤ) : ':' ∉ (Int.repr z).toList := by
  have hdigits : ∀ n : ℕ, ':' ∉ (Nat.repr n).toList := by
    intro n h
    unfold Nat.repr at h
    rw [String.toList_ofList] at h
    have hdigit := Nat.isDigit_of_mem_toDigits (by decide) (by decide) h
    exact absurd hdigit (by decide)
  cases z with
  | ofNat n => exact hdigits n
  | negSucc n =>
    unfold Int.repr
    rw [String.toList_append, List.mem_append, not_or]
    exact ⟨by decide, hdigits _⟩

theorem relieved_bucket (rule : RateLimitRule) : rule.relieved.bucket = rule.bucket := by
  unfold RateLimitRule.relieved
  split <;> rfl

theorem ruleTable_buckets :
    (ruleTable relief).map RateLimitRule.bucket = rateLimitRules.map RateLimitRule.bucket := by
  unfold ruleTable
  split
  · rw [List.map_map]
    exact List.map_congr_left fun rule _ => relieved_bucket rule
  · rfl

theorem rateLimitRules_one_colon : ∀ rule ∈ rateLimitRules, rule.bucket.count ':' = 1 := by decide

theorem rateLimitRules_nodup : (rateLimitRules.map RateLimitRule.bucket).Nodup := by decide

/-- A bucket of the table is two words with a colon between them. -/
theorem bucket_split {rule : RateLimitRule} (h : rule ∈ ruleTable relief) :
    ∃ front back, rule.bucket = front ++ ':' :: back ∧ ':' ∉ front ∧ ':' ∉ back := by
  have hcount : rule.bucket.count ':' = 1 := by
    have hmem := List.mem_map_of_mem (f := RateLimitRule.bucket) h
    rw [ruleTable_buckets] at hmem
    obtain ⟨rule', hrule', hbucket⟩ := List.mem_map.mp hmem
    rw [← hbucket]
    exact rateLimitRules_one_colon rule' hrule'
  have hmem : ':' ∈ rule.bucket := List.count_pos_iff.mp (by omega)
  obtain ⟨front, back, hsplit⟩ := List.append_of_mem hmem
  rw [hsplit, List.count_append, List.count_cons_self] at hcount
  exact ⟨front, back, hsplit, List.count_eq_zero.mp (by omega), List.count_eq_zero.mp (by omega)⟩

theorem rule_eq {rule rule' : RateLimitRule} (h : rule ∈ ruleTable relief)
    (h' : rule' ∈ ruleTable relief) (hbucket : rule.bucket = rule'.bucket) : rule = rule' := by
  have hnodup : ((ruleTable relief).map RateLimitRule.bucket).Nodup := by
    rw [ruleTable_buckets]
    exact rateLimitRules_nodup
  exact List.inj_on_of_nodup_map hnodup h h' hbucket

/-- The key of a slot names its bucket, its identifier and its window, whatever the identifier. -/
theorem key_inj (hrule : slot.rule ∈ ruleTable relief) (hrule' : slot'.rule ∈ ruleTable relief)
    (h : slot.key = slot'.key) : slot = slot' := by
  obtain ⟨front, back, hbucket, hfront, hback⟩ := bucket_split hrule
  obtain ⟨front', back', hbucket', hfront', hback'⟩ := bucket_split hrule'
  have hkey := List.append_cancel_left h
  rw [hbucket, hbucket', List.append_assoc, List.append_assoc, List.cons_append,
    List.cons_append] at hkey
  obtain ⟨hsame, hkey⟩ := append_cons_inj hfront hfront' hkey
  obtain ⟨hsame', hkey⟩ := append_cons_inj hback hback' hkey
  obtain ⟨hidentifier, hindex⟩ := append_cons_inj_right (colon_not_mem_repr slot.index)
    (colon_not_mem_repr slot'.index) hkey
  have hrules := rule_eq hrule hrule' (by rw [hbucket, hbucket', hsame, hsame'])
  have hindices := Int.repr_inj.mp (String.toList_injective hindex)
  cases slot
  cases slot'
  dsimp only at hrules hidentifier hindices
  rw [hrules, hidentifier, hindices]

end Keys

/-! ### Windows -/

section Windows

variable {rule : RateLimitRule} {now : Instant}

theorem window_pos : 0 < rule.window := by
  have hpos : (0 : ℤ) < rule.windowSeconds := Int.natCast_pos.mpr (not_lt.mp rule.post_window)
  exact Int.mul_pos hpos (by decide)

theorem windowIndex_eq (h : 0 ≤ now) : windowIndex now rule.windowSeconds = now / rule.window := by
  unfold windowIndex RateLimitRule.window
  rw [Int.tdiv_eq_ediv_of_nonneg h, Int.ediv_ediv_of_nonneg (by decide), Int.mul_comm]

theorem window_begun (h : 0 ≤ now) : windowIndex now rule.windowSeconds * rule.window ≤ now := by
  rw [windowIndex_eq h]
  exact Int.ediv_mul_le now (ne_of_gt window_pos)

theorem window_lasts (h : 0 ≤ now) :
    now < (windowIndex now rule.windowSeconds + 1) * rule.window := by
  rw [windowIndex_eq h]
  exact Int.lt_ediv_add_one_mul_self now window_pos

end Windows

/-! ### What the checks keep -/

def Stage.Fair (limit : ℕ) : Stage → Prop
  | accepted n => n ≤ limit
  | refused n => limit < n
  | _ => True

namespace Limiter

variable (s : Limiter)

def Counted (slot : Slot) (n : ℕ) : Prop :=
  ∃ S : Finset CheckId, n ≤ S.card ∧
    ∀ i ∈ S, ∃ c stage, s.checks i = some (c, stage) ∧ c.slot = slot ∧ stage.count ≠ none

/-- A check goes by the table, its reading lies in the past, and so many have counted themselves
as it was answered. -/
structure SoundCheck (relief : Bool) (c : Check) (stage : Stage) : Prop where
  rule : c.rule ∈ ruleTable relief
  begun : 0 ≤ c.readAt
  past : c.readAt ≤ s.store.now
  fair : stage.Fair c.rule.limit
  counted : ∀ n, stage.count = some n → s.Counted c.slot n

/-- A counter counts checks, and does not lapse before the end of the window behind its own. -/
structure SoundCounter (slot : Slot) (counter : Counter) : Prop where
  counted : s.Counted slot counter.count
  expiry : ∀ t, counter.expiresAt = some t → slot.lapse ≤ t

structure Sound (relief : Bool) : Prop where
  now : 0 ≤ s.store.now
  checks : ∀ i c stage, s.checks i = some (c, stage) → s.SoundCheck relief c stage
  counters : ∀ slot : Slot, slot.rule ∈ ruleTable relief → ∀ counter,
    s.store.counters slot.key = some counter → s.SoundCounter slot counter

end Limiter

section Steps

variable {s s' : Limiter} {relief : Bool} {slot : Slot} {n : ℕ} {store : Store Text} {i : CheckId}
  {c : Check} {stage stage' : Stage} {counter : Counter}

@[simp] theorem enter_store : (s.enter store i c stage).store = store := rfl

theorem enter_self : (s.enter store i c stage).checks i = some (c, stage) :=
  Function.update_self ..

theorem enter_other {j : CheckId} (h : j ≠ i) : (s.enter store i c stage).checks j = s.checks j :=
  Function.update_of_ne h _ _

/-- A check that has counted itself goes on as one that has. -/
theorem Limiter.Counted.enter (h : s.Counted slot n)
    (hkept : ∀ c' stage', s.checks i = some (c', stage') → stage'.count ≠ none →
      c' = c ∧ stage.count ≠ none) : (s.enter store i c stage).Counted slot n := by
  obtain ⟨S, hcard, hS⟩ := h
  refine ⟨S, hcard, fun j hj => ?_⟩
  obtain ⟨c', stage', hcheck, hslot, hcount⟩ := hS j hj
  by_cases hji : j = i
  · subst hji
    obtain ⟨rfl, hstage⟩ := hkept c' stage' hcheck hcount
    exact ⟨c', stage, enter_self, hslot, hstage⟩
  · exact ⟨c', stage', (enter_other hji).trans hcheck, hslot, hcount⟩

theorem Limiter.Counted.succ (h : s.Counted c.slot n) (hkeyed : s.checks i = some (c, .keyed))
    (hcount : stage.count ≠ none) : (s.enter store i c stage).Counted c.slot (n + 1) := by
  obtain ⟨S, hcard, hS⟩ := h
  have hfresh : i ∉ S := by
    intro hmem
    obtain ⟨c', stage', hcheck, _, hcount'⟩ := hS i hmem
    obtain ⟨_, rfl⟩ := Prod.mk.inj (Option.some.inj (hkeyed.symm.trans hcheck))
    exact hcount' rfl
  refine ⟨insert i S, ?_, fun j hj => ?_⟩
  · rw [Finset.card_insert_of_notMem hfresh]
    omega
  · rcases Finset.mem_insert.mp hj with rfl | hj
    · exact ⟨c, stage, enter_self, rfl, hcount⟩
    · obtain ⟨c', stage', hcheck, hslot, hcount'⟩ := hS j hj
      have hji : j ≠ i := fun heq => hfresh (heq ▸ hj)
      exact ⟨c', stage', (enter_other hji).trans hcheck, hslot, hcount'⟩

theorem counted_zero : s.Counted slot 0 := ⟨∅, Nat.le_refl 0, fun _ h => (by cases h)⟩

/-- What a step does: a check begins, counts itself, sets the expiry or is done, or time passes. -/
inductive Change (relief : Bool) (s : Limiter) : Limiter → Prop
  | read (i : CheckId) (c : Check) (hnew : s.checks i = none) (hrule : c.rule ∈ ruleTable relief)
      (hnow : c.readAt = s.store.now) : Change relief s (s.enter s.store i c .keyed)
  | incr (i : CheckId) (c : Check) (h : s.checks i = some (c, .keyed)) :
      Change relief s (s.enter (s.store.incr c.slot.key).1 i c
        (.counted (s.store.incr c.slot.key).2))
  | expire (i : CheckId) (c : Check) (n : ℕ) (h : s.checks i = some (c, .counted n)) :
      Change relief s (s.enter
        (s.store.expireNx c.slot.key (c.rule.window * ttlWindowMultiplier)) i c (.armed n))
  | done (i : CheckId) (c : Check) (stage stage' : Stage) (h : s.checks i = some (c, stage))
      (hcount : stage'.count = stage.count) (hfair : stage'.Fair c.rule.limit) :
      Change relief s (s.enter s.store i c stage')
  | elapse (d : ℕ) : Change relief s ⟨s.store.elapse d, s.checks⟩

theorem change_of_step {event : Event} (h : Step (ruleTable relief) s event s') :
    Change relief s s' := by
  cases h with
  | read i rule identifier hnew hrule => exact .read i _ hnew hrule rfl
  | incr i c h => exact .incr i c h
  | expire i c n h => exact .expire i c n h
  | answer i c n h =>
    refine .done i c _ _ h ?_ ?_
    · split <;> rfl
    · split
      next hover => exact hover
      next hwithin => exact not_lt.mp hwithin
  | crash i c stage h hrunning => exact .done i c _ _ h rfl trivial
  | elapse d => exact .elapse d

/-- A sound check stays sound, as the clock goes on and no check is uncounted. -/
theorem Limiter.SoundCheck.keep (h : s.SoundCheck relief c stage)
    (hnow : s.store.now ≤ s'.store.now)
    (hcounted : ∀ slot n, s.Counted slot n → s'.Counted slot n) : s'.SoundCheck relief c stage where
  rule := h.rule
  begun := h.begun
  past := h.past.trans hnow
  fair := h.fair
  counted n hn := hcounted _ n (h.counted n hn)

/-- The reading of a check lies in the window of its slot. -/
theorem slot_begun (h : 0 ≤ c.readAt) : c.slot.index * c.rule.window ≤ c.readAt := window_begun h

theorem lapse_eq : slot.lapse = slot.index * slot.rule.window + 2 * slot.rule.window := by
  unfold Slot.lapse
  rw [Int.add_mul]

theorem Limiter.Sound.step (h : s.Sound relief) (hchange : Change relief s s') :
    s'.Sound relief := by
  cases hchange with
  | read i c hnew hrule hnow =>
    have hkept : ∀ slot n, s.Counted slot n → (s.enter s.store i c .keyed).Counted slot n := by
      intro slot n hcounted
      refine hcounted.enter fun c' stage' hcheck _ => ?_
      rw [hnew] at hcheck
      cases hcheck
    refine ⟨h.now, fun j c' stage' hcheck => ?_, fun slot hslot counter hcounter => ?_⟩
    · by_cases hj : j = i
      · subst hj
        obtain ⟨rfl, rfl⟩ := Prod.mk.inj (Option.some.inj (enter_self.symm.trans hcheck))
        exact ⟨hrule, hnow ▸ h.now, hnow.le, trivial, fun n hn => (by cases hn)⟩
      · rw [enter_other hj] at hcheck
        exact (h.checks j c' stage' hcheck).keep le_rfl hkept
    · have hsound := h.counters slot hslot counter hcounter
      exact ⟨hkept slot _ hsound.counted, hsound.expiry⟩
  | incr i c hkeyed =>
    have hcheck := h.checks i c _ hkeyed
    obtain ⟨counter', hcounter', hanswer, hcases⟩ :=
      @Store.incr_self _ _ s.store c.slot.key
    generalize hstore : s.store.incr c.slot.key = answer at hcounter' hanswer ⊢
    have hnow : answer.1.now = s.store.now := by
      rw [← hstore]
      exact Store.incr_now
    have hkept : ∀ slot n, s.Counted slot n →
        (s.enter answer.1 i c (.counted answer.2)).Counted slot n := by
      intro slot n hcounted
      refine hcounted.enter fun c' stage' hcheck' _ => ?_
      obtain ⟨rfl, _⟩ := Prod.mk.inj (Option.some.inj (hkeyed.symm.trans hcheck'))
      exact ⟨rfl, Option.some_ne_none _⟩
    -- The increment answers one more than have counted themselves.
    have hcount : (s.enter answer.1 i c (.counted answer.2)).Counted c.slot answer.2 := by
      rw [← hanswer]
      rcases hcases with ⟨_, rfl⟩ | ⟨old, hold, rfl⟩
      · exact counted_zero.succ hkeyed (Option.some_ne_none _)
      · exact ((h.counters c.slot hcheck.rule old hold).counted).succ hkeyed
          (Option.some_ne_none _)
    refine ⟨hnow ▸ h.now, fun j c' stage' hcheck' => ?_, fun slot hslot counter hcounter => ?_⟩
    · by_cases hj : j = i
      · subst hj
        obtain ⟨rfl, rfl⟩ := Prod.mk.inj (Option.some.inj (enter_self.symm.trans hcheck'))
        refine ⟨hcheck.rule, hcheck.begun, hcheck.past.trans hnow.ge, trivial, fun n hn => ?_⟩
        obtain rfl := Option.some.inj hn
        exact hcount
      · rw [enter_other hj] at hcheck'
        exact (h.checks j c' stage' hcheck').keep hnow.ge hkept
    · by_cases hsame : slot.key = c.slot.key
      · obtain rfl := key_inj hslot hcheck.rule hsame
        obtain rfl := Option.some.inj (hcounter'.symm.trans hcounter)
        refine ⟨hanswer ▸ hcount, fun t ht => ?_⟩
        rcases hcases with ⟨_, rfl⟩ | ⟨old, hold, rfl⟩
        · cases ht
        · exact (h.counters c.slot hslot old hold).expiry t ht
      · rw [enter_store, ← hstore, Store.incr_other hsame] at hcounter
        have hsound := h.counters slot hslot counter hcounter
        exact ⟨hkept slot _ hsound.counted, hsound.expiry⟩
  | expire i c n hcounted =>
    have hcheck := h.checks i c _ hcounted
    have hkept : ∀ slot n', s.Counted slot n' → (s.enter (s.store.expireNx c.slot.key
        (c.rule.window * ttlWindowMultiplier)) i c (.armed n)).Counted slot n' := by
      intro slot n' hbefore
      refine hbefore.enter fun c' stage' hcheck' _ => ?_
      obtain ⟨rfl, _⟩ := Prod.mk.inj (Option.some.inj (hcounted.symm.trans hcheck'))
      exact ⟨rfl, Option.some_ne_none _⟩
    refine ⟨h.now, fun j c' stage' hcheck' => ?_, fun slot hslot counter hcounter => ?_⟩
    · by_cases hj : j = i
      · subst hj
        obtain ⟨rfl, rfl⟩ := Prod.mk.inj (Option.some.inj (enter_self.symm.trans hcheck'))
        exact ⟨hcheck.rule, hcheck.begun, hcheck.past, trivial,
          fun n' hn => hkept _ n' (hcheck.counted n' hn)⟩
      · rw [enter_other hj] at hcheck'
        exact (h.checks j c' stage' hcheck').keep le_rfl hkept
    · obtain ⟨old, hold, hcount, hexpiry⟩ := Store.expireNx_some hcounter
      have hsound := h.counters slot hslot old hold
      refine ⟨hcount ▸ hkept slot _ hsound.counted, fun t ht => ?_⟩
      rcases hexpiry with hexpiry | ⟨hsame, hexpiry⟩
      · exact hsound.expiry t (hexpiry ▸ ht)
      · -- The reading of the check is in the window, and the expiry is two windows behind it.
        obtain rfl := key_inj hslot hcheck.rule hsame
        obtain rfl := Option.some.inj (hexpiry.symm.trans ht)
        have hbegun := (slot_begun hcheck.begun).trans hcheck.past
        rw [lapse_eq, Int.mul_comm 2]
        exact Int.add_le_add_right hbegun _
  | done i c stage stage' hbefore hcount hfair =>
    have hcheck := h.checks i c _ hbefore
    have hkept : ∀ slot n, s.Counted slot n → (s.enter s.store i c stage').Counted slot n := by
      intro slot n hcounted
      refine hcounted.enter fun c' stage₀ hcheck' hne => ?_
      obtain ⟨rfl, rfl⟩ := Prod.mk.inj (Option.some.inj (hbefore.symm.trans hcheck'))
      exact ⟨rfl, hcount ▸ hne⟩
    refine ⟨h.now, fun j c' stage₀ hcheck' => ?_, fun slot hslot counter hcounter => ?_⟩
    · by_cases hj : j = i
      · subst hj
        obtain ⟨rfl, rfl⟩ := Prod.mk.inj (Option.some.inj (enter_self.symm.trans hcheck'))
        exact ⟨hcheck.rule, hcheck.begun, hcheck.past, hfair,
          fun n hn => hkept _ n (hcheck.counted n (hcount ▸ hn))⟩
      · rw [enter_other hj] at hcheck'
        exact (h.checks j c' stage₀ hcheck').keep le_rfl hkept
    · have hsound := h.counters slot hslot counter hcounter
      exact ⟨hkept slot _ hsound.counted, hsound.expiry⟩
  | elapse d =>
    have hnow : s.store.now ≤ s.store.now + (d : ℤ) := by omega
    refine ⟨h.now.trans hnow, fun j c stage hcheck => ?_, fun slot hslot counter hcounter => ?_⟩
    · exact (h.checks j c stage hcheck).keep hnow fun _ _ hcounted => hcounted
    · have hsound := h.counters slot hslot counter (Store.elapse_some.mp hcounter).1
      exact ⟨hsound.counted, hsound.expiry⟩

theorem sound_inductive : (limiterSystem (ruleTable relief)).Inductive fun s => s.Sound relief := by
  constructor
  · intro s h
    refine ⟨h.now, fun i c stage hcheck => ?_, fun slot _ counter hcounter => ?_⟩
    · rw [h.checks] at hcheck
      cases hcheck
    · rw [h.counters] at hcounter
      cases hcounter
  · exact fun s event s' hs hstep => hs.step (change_of_step hstep)

end Steps

/-! ### Prompt checks -/

section PromptChecks

variable {s s' : Limiter} {relief : Bool}

/-- While the counter of a slot may be there, its checks have counts of their own, none above it. -/
structure Numbered (s : Limiter) : Prop where
  pos : ∀ i c stage n, s.checks i = some (c, stage) → stage.count = some n → 1 ≤ n
  below : ∀ i c stage n, s.checks i = some (c, stage) → stage.count = some n →
    s.store.now < c.slot.lapse → ∃ counter, s.store.counters c.slot.key = some counter ∧
      n ≤ counter.count
  apart : ∀ i j c c' stage stage' n, s.checks i = some (c, stage) → s.checks j = some (c', stage') →
    c.slot = c'.slot → stage.count = some n → stage'.count = some n → i = j

/-- A step that answers no increment keeps the counts. -/
theorem Numbered.enter (h : Numbered s) {store : Store Text} {i : CheckId} {c : Check}
    {stage : Stage} (hnow : store.now = s.store.now)
    (hcounters : ∀ key counter, s.store.counters key = some counter →
      ∃ counter', store.counters key = some counter' ∧ counter'.count = counter.count)
    (hstage : stage.count = none ∨ ∃ stage₀, s.checks i = some (c, stage₀) ∧
      stage.count = stage₀.count) : Numbered (s.enter store i c stage) := by
  have hback : ∀ j c' stage' n, (s.enter store i c stage).checks j = some (c', stage') →
      stage'.count = some n → ∃ stage₀, s.checks j = some (c', stage₀) ∧ stage₀.count = some n := by
    intro j c' stage' n hcheck hn
    by_cases hj : j = i
    · subst hj
      obtain ⟨rfl, rfl⟩ := Prod.mk.inj (Option.some.inj (enter_self.symm.trans hcheck))
      rcases hstage with hnone | ⟨stage₀, hbefore, hcount⟩
      · rw [hnone] at hn
        cases hn
      · exact ⟨stage₀, hbefore, hcount ▸ hn⟩
    · rw [enter_other hj] at hcheck
      exact ⟨stage', hcheck, hn⟩
  refine ⟨fun j c' stage' n hcheck hn => ?_, fun j c' stage' n hcheck hn hlive => ?_,
    fun j k c' c'' stage' stage'' n hj hk hslot hn hn' => ?_⟩
  · obtain ⟨stage₀, hbefore, hcount⟩ := hback j c' stage' n hcheck hn
    exact h.pos j c' stage₀ n hbefore hcount
  · obtain ⟨stage₀, hbefore, hcount⟩ := hback j c' stage' n hcheck hn
    obtain ⟨counter, hcounter, hle⟩ := h.below j c' stage₀ n hbefore hcount (hnow ▸ hlive)
    obtain ⟨counter', hcounter', hsame⟩ := hcounters _ counter hcounter
    exact ⟨counter', hcounter', hsame ▸ hle⟩
  · obtain ⟨stage₀, hbefore, hcount⟩ := hback j c' stage' n hj hn
    obtain ⟨stage₁, hbefore', hcount'⟩ := hback k c'' stage'' n hk hn'
    exact h.apart j k c' c'' stage₀ stage₁ n hbefore hbefore' hslot hcount hcount'

/-- A prompt increment answers a count of its own. -/
theorem Numbered.incr (h : Numbered s) {i : CheckId} {c : Check}
    (hkeyed : s.checks i = some (c, .keyed)) (hlive : s.store.now < c.slot.lapse) :
    Numbered (s.enter (s.store.incr c.slot.key).1 i c
      (.counted (s.store.incr c.slot.key).2)) := by
  obtain ⟨counter', hcounter', hanswer, hcases⟩ := @Store.incr_self _ _ s.store c.slot.key
  have hpos : 1 ≤ (s.store.incr c.slot.key).2 := by
    rw [← hanswer]
    rcases hcases with ⟨_, rfl⟩ | ⟨old, _, rfl⟩
    · exact Nat.le_refl 1
    · exact Nat.succ_pos _
  have habove : ∀ j c' stage n, s.checks j = some (c', stage) → stage.count = some n →
      c'.slot = c.slot → n < (s.store.incr c.slot.key).2 := by
    intro j c' stage n hcheck hn hslot
    obtain ⟨counter, hcounter, hle⟩ := h.below j c' stage n hcheck hn (hslot ▸ hlive)
    rw [hslot] at hcounter
    rw [← hanswer]
    rcases hcases with ⟨hnone, _⟩ | ⟨old, hold, rfl⟩
    · rw [hnone] at hcounter
      cases hcounter
    · obtain rfl := Option.some.inj (hold.symm.trans hcounter)
      exact Nat.lt_succ_of_le hle
  refine ⟨fun j c' stage n hcheck hn => ?_, fun j c' stage n hcheck hn hlive' => ?_,
    fun j k c' c'' stage stage' n hj hk hslot hn hn' => ?_⟩
  · by_cases hj : j = i
    · subst hj
      obtain ⟨rfl, rfl⟩ := Prod.mk.inj (Option.some.inj (enter_self.symm.trans hcheck))
      obtain rfl := Option.some.inj hn
      exact hpos
    · rw [enter_other hj] at hcheck
      exact h.pos j c' stage n hcheck hn
  · by_cases hj : j = i
    · subst hj
      obtain ⟨rfl, rfl⟩ := Prod.mk.inj (Option.some.inj (enter_self.symm.trans hcheck))
      obtain rfl := Option.some.inj hn
      exact ⟨counter', hcounter', hanswer.ge⟩
    · rw [enter_other hj] at hcheck
      rw [enter_store, Store.incr_now] at hlive'
      obtain ⟨counter, hcounter, hle⟩ := h.below j c' stage n hcheck hn hlive'
      by_cases hkey : c'.slot.key = c.slot.key
      · refine ⟨counter', hkey ▸ hcounter', ?_⟩
        rw [hkey] at hcounter
        rcases hcases with ⟨hnone, _⟩ | ⟨old, hold, rfl⟩
        · rw [hnone] at hcounter
          cases hcounter
        · obtain rfl := Option.some.inj (hold.symm.trans hcounter)
          exact Nat.le_succ_of_le hle
      · exact ⟨counter, (Store.incr_other hkey).trans hcounter, hle⟩
  · by_cases hji : j = i
    · by_cases hki : k = i
      · exact hji.trans hki.symm
      · subst hji
        obtain ⟨rfl, rfl⟩ := Prod.mk.inj (Option.some.inj (enter_self.symm.trans hj))
        obtain rfl := Option.some.inj hn
        rw [enter_other hki] at hk
        exact absurd (habove k c'' stage' _ hk hn' hslot.symm) (Nat.lt_irrefl _)
    · rw [enter_other hji] at hj
      by_cases hki : k = i
      · subst hki
        obtain ⟨rfl, rfl⟩ := Prod.mk.inj (Option.some.inj (enter_self.symm.trans hk))
        obtain rfl := Option.some.inj hn'
        exact absurd (habove j c' stage _ hj hn hslot) (Nat.lt_irrefl _)
      · rw [enter_other hki] at hk
        exact h.apart j k c' c'' stage stage' n hj hk hslot hn hn'

/-- Increments in time keep the counts apart. -/
theorem Numbered.step (h : Numbered s) (hs : s.Sound relief) {event : Event}
    (hstep : Step (ruleTable relief) s event s') (hprompt : Prompt s event) : Numbered s' := by
  have hsame : ∀ key counter, s.store.counters key = some counter →
      ∃ counter', s.store.counters key = some counter' ∧ counter'.count = counter.count :=
    fun key counter hcounter => ⟨counter, hcounter, rfl⟩
  cases hstep with
  | read i rule identifier hnew hrule => exact h.enter rfl hsame (Or.inl rfl)
  | incr i c hkeyed =>
    exact h.incr hkeyed (hprompt c hkeyed)
  | expire i c n hcounted =>
    exact h.enter rfl (fun key counter hcounter => Store.exists_expireNx hcounter)
      (Or.inr ⟨_, hcounted, rfl⟩)
  | answer i c n harmed =>
    refine h.enter rfl hsame (Or.inr ⟨_, harmed, ?_⟩)
    split <;> rfl
  | crash i c stage hbefore hrunning => exact h.enter rfl hsame (Or.inr ⟨_, hbefore, rfl⟩)
  | elapse d =>
    refine ⟨h.pos, fun i c stage n hcheck hn hlive => ?_, h.apart⟩
    have hbefore : s.store.now < c.slot.lapse :=
      lt_of_le_of_lt (Int.le_add_of_nonneg_right (Int.natCast_nonneg d)) hlive
    obtain ⟨counter, hcounter, hle⟩ := h.below i c stage n hcheck hn hbefore
    -- No expiry comes before the end of the window behind its own.
    have hsound := hs.counters c.slot (hs.checks i c stage hcheck).rule counter hcounter
    refine ⟨counter, Store.elapse_some.mpr ⟨hcounter, fun t ht => ?_⟩, hle⟩
    exact lt_of_lt_of_le hlive (hsound.expiry t ht)

theorem numbered_reach
    (h : ((limiterSystem (ruleTable relief)).guarded Prompt).Reach s) : Numbered s := by
  induction h with
  | init h =>
    refine ⟨fun i c stage n hcheck => ?_, fun i c stage n hcheck => ?_,
      fun i j c c' stage stage' n hcheck => ?_⟩
    all_goals
      rw [h.checks] at hcheck
      cases hcheck
  | step hs hstep ih => exact ih.step (sound_inductive.reach hs.of_guarded) hstep.1 hstep.2

end PromptChecks

/-! ### The law -/

def Limiter.Accepted (s : Limiter) (slot : Slot) (i : CheckId) : Prop :=
  ∃ c n, s.checks i = some (c, .accepted n) ∧ c.slot = slot

def Limiter.AcceptedAt (s : Limiter) (rule : RateLimitRule) (identifier : Text) (readAt : Instant)
    (i : CheckId) : Prop :=
  ∃ c n, s.checks i = some (c, .accepted n) ∧ c.rule = rule ∧ c.identifier = identifier ∧
    c.readAt = readAt

/-- At most the limit in each window, and at most twice in an interval of the length of one. -/
structure Limiter.Limits (s : Limiter) : Prop where
  window : ∀ (slot : Slot) (S : Finset CheckId), (∀ i ∈ S, s.Accepted slot i) →
    S.card ≤ slot.rule.limit
  interval : ∀ rule identifier start (S : Finset CheckId), (∀ i ∈ S, ∃ readAt,
      s.AcceptedAt rule identifier readAt i ∧ start ≤ readAt ∧ readAt ≤ start + rule.window) →
    S.card ≤ 2 * rule.limit

/-- Nothing is shared between slots, no counter lapses in its window, and a refusal stands behind
more checks than the limit. -/
structure Limiter.Separates (relief : Bool) (s : Limiter) : Prop where
  keys : ∀ slot slot' : Slot, slot.rule ∈ ruleTable relief → slot'.rule ∈ ruleTable relief →
    (slot.rule.bucket, slot.identifier, slot.index) ≠
      (slot'.rule.bucket, slot'.identifier, slot'.index) → slot.key ≠ slot'.key
  current : ∀ slot : Slot, slot.rule ∈ ruleTable relief → ∀ counter,
    s.store.counters slot.key = some counter → ∀ d : ℕ,
    windowIndex (s.store.now + d) slot.rule.windowSeconds = slot.index →
    (s.store.elapse d).counters slot.key = some counter
  refused : ∀ i c n, s.checks i = some (c, .refused n) → ∃ S : Finset CheckId,
    c.rule.limit < S.card ∧ ∀ j ∈ S, ∃ c' stage, s.checks j = some (c', stage) ∧ c'.slot = c.slot

section Law

variable {s : Limiter} {relief : Bool}

theorem Limiter.Sound.separates (h : s.Sound relief) : s.Separates relief where
  keys slot slot' hrule hrule' hne hkey := by
    obtain rfl := key_inj hrule hrule' hkey
    exact hne rfl
  current slot hrule counter hcounter d hindex := by
    refine Store.elapse_some.mpr ⟨hcounter, fun t ht => ?_⟩
    have hlasts := @window_lasts slot.rule _
      (h.now.trans (Int.le_add_of_nonneg_right (Int.natCast_nonneg d)))
    rw [hindex] at hlasts
    have hexpiry := (h.counters slot hrule counter hcounter).expiry t ht
    refine lt_of_lt_of_le hlasts (le_trans ?_ hexpiry)
    exact Int.mul_le_mul_of_nonneg_right (by omega) window_pos.le
  refused i c n hcheck := by
    have hsound := h.checks i c _ hcheck
    obtain ⟨S, hcard, hS⟩ := hsound.counted n rfl
    refine ⟨S, lt_of_lt_of_le hsound.fair hcard, fun j hj => ?_⟩
    obtain ⟨c', stage, hcheck', hslot, _⟩ := hS j hj
    exact ⟨c', stage, hcheck', hslot⟩

/-- The counts of the accepted checks of a slot are different numbers up to the limit. -/
theorem Numbered.window (h : Numbered s) (hs : s.Sound relief) (slot : Slot) (S : Finset CheckId)
    (hS : ∀ i ∈ S, s.Accepted slot i) : S.card ≤ slot.rule.limit := by
  have hcount : ∀ i ∈ S, ∃ n ∈ Finset.Icc 1 slot.rule.limit, ∃ c, c.slot = slot ∧
      s.checks i = some (c, .accepted n) := by
    intro i hi
    obtain ⟨c, n, hcheck, rfl⟩ := hS i hi
    exact ⟨n, Finset.mem_Icc.mpr ⟨h.pos i c _ n hcheck rfl, (hs.checks i c _ hcheck).fair⟩, c, rfl,
      hcheck⟩
  choose! count hcounts using hcount
  have hcard : S.card ≤ (Finset.Icc 1 slot.rule.limit).card := by
    refine Finset.card_le_card_of_injOn count (fun i hi => (hcounts i hi).1) ?_
    intro i hi j hj hsame
    obtain ⟨_, c, hslot, hcheck⟩ := hcounts i hi
    obtain ⟨_, c', hslot', hcheck'⟩ := hcounts j hj
    rw [← show count i = count j from hsame] at hcheck'
    exact h.apart i j c c' _ _ _ hcheck hcheck' (hslot.trans hslot'.symm) rfl rfl
  rwa [Nat.card_Icc, Nat.add_sub_cancel] at hcard

/-- An interval of one window length meets two windows. -/
theorem two_windows {rule : RateLimitRule} {start readAt : Instant} (hbegun : 0 ≤ readAt)
    (hstart : start ≤ readAt) (hstop : readAt ≤ start + rule.window) :
    windowIndex readAt rule.windowSeconds = windowIndex (max start 0) rule.windowSeconds ∨
      windowIndex readAt rule.windowSeconds =
        windowIndex (max start 0) rule.windowSeconds + 1 := by
  have hpos := @window_pos rule
  have hzero : 0 ≤ max start 0 := le_max_right _ _
  have hlow : max start 0 ≤ readAt := max_le hstart hbegun
  have hhigh : readAt ≤ max start 0 + rule.window :=
    hstop.trans (Int.add_le_add_right (le_max_left _ _) _)
  rw [windowIndex_eq hbegun, windowIndex_eq hzero]
  have hfirst := Int.ediv_le_ediv hpos hlow
  have hlast := Int.ediv_le_ediv hpos hhigh
  rw [show max start 0 + rule.window = max start 0 + rule.window * 1 by rw [Int.mul_one],
    Int.add_mul_ediv_left _ _ hpos.ne'] at hlast
  omega

theorem Numbered.limits (h : Numbered s) (hs : s.Sound relief) : s.Limits := by
  refine ⟨h.window hs, fun rule identifier start S hS => ?_⟩
  let first := windowIndex (max start 0) rule.windowSeconds
  have hslot : ∀ i ∈ S, s.Accepted ⟨rule, identifier, first⟩ i ∨
      s.Accepted ⟨rule, identifier, first + 1⟩ i := by
    intro i hi
    obtain ⟨readAt, ⟨c, n, hcheck, rfl, rfl, rfl⟩, hstart, hstop⟩ := hS i hi
    rcases two_windows (hs.checks i c _ hcheck).begun hstart hstop with hindex | hindex
    · refine Or.inl ⟨c, n, hcheck, ?_⟩
      unfold Check.slot
      rw [hindex]
    · refine Or.inr ⟨c, n, hcheck, ?_⟩
      unfold Check.slot
      rw [hindex]
  classical
  have hsplit := Finset.card_filter_add_card_filter_not (s := S)
    (s.Accepted ⟨rule, identifier, first⟩)
  have hone := h.window hs ⟨rule, identifier, first⟩
    (S.filter (s.Accepted ⟨rule, identifier, first⟩)) fun i hi => (Finset.mem_filter.mp hi).2
  have htwo := h.window hs ⟨rule, identifier, first + 1⟩
    (S.filter fun i => ¬ s.Accepted ⟨rule, identifier, first⟩ i) fun i hi =>
      (hslot i (Finset.mem_filter.mp hi).1).resolve_left (Finset.mem_filter.mp hi).2
  dsimp only at hone htwo
  omega

end Law

/-- In every run the counters are apart, outlast their windows and refuse nobody within the limit;
with prompt checks the limits hold. -/
theorem rate_limits_hold (relief : Bool) (s : Limiter) :
    ((limiterSystem (ruleTable relief)).Reach s → s.Separates relief) ∧
      (((limiterSystem (ruleTable relief)).guarded Prompt).Reach s → s.Limits) := by
  constructor
  · exact fun h => (sound_inductive.reach h).separates
  · exact fun h => (numbered_reach h).limits (sound_inductive.reach h.of_guarded)

/-! ### A check that stalls -/

theorem first_accepted {rules : List RateLimitRule} {s : Limiter} {i : CheckId} {c : Check}
    (hkeyed : s.checks i = some (c, .keyed)) (hnone : s.store.counters c.slot.key = none) :
    ∃ s₁ s₂ s₃, Step rules s (.incr i) s₁ ∧ Step rules s₁ (.expire i) s₂ ∧
      Step rules s₂ (.answer i) s₃ ∧ s₃.store.now = s.store.now ∧
      s₃.checks = Function.update s.checks i (some (c, .accepted 1)) ∧
      s₃.store.counters c.slot.key = some ⟨1, some (s.store.now + c.rule.window * 2)⟩ := by
  have hincr : s.store.incr c.slot.key =
      ({ s.store with counters := Function.update s.store.counters c.slot.key (some ⟨1, none⟩) },
        1) := by
    unfold Store.incr
    rw [hnone]
  have hverdict : (if 1 > c.rule.limit then Stage.refused 1 else .accepted 1) = .accepted 1 :=
    if_neg c.rule.post_limit
  have hfirst := @Step.incr rules s i c hkeyed
  rw [hincr] at hfirst
  refine ⟨_, _, _, hfirst, .expire i c 1 enter_self, .answer i c 1 enter_self, rfl, ?_, ?_⟩
  · rw [hverdict]
    unfold Limiter.enter
    dsimp only
    rw [Function.update_idem, Function.update_idem]
  · unfold Limiter.enter Store.expireNx
    dsimp only
    rw [Function.update_self, Function.update_self]
    rfl

def avatarUpload : RateLimitRule :=
  { bucket := "me:avatar-upload".toList, limit := 1, windowSeconds := 600 }

theorem avatarUpload_mem : avatarUpload ∈ ruleTable false :=
  List.mem_of_getElem? (show rateLimitRules[23]? = some avatarUpload from rfl)

def avatarCheck : Check := ⟨avatarUpload, "7".toList, 0⟩

def twoKeyed : Limiter where
  store := ⟨0, fun _ => none⟩
  checks := Function.update (Function.update (fun _ => none) 0 (some (avatarCheck, .keyed))) 1
    (some (avatarCheck, .keyed))

theorem twoKeyed_reach : ((limiterSystem (ruleTable false)).guarded Prompt).Reach twoKeyed := by
  have hinit : ((limiterSystem (ruleTable false)).guarded Prompt).Reach
      ⟨⟨0, fun _ => none⟩, fun _ => none⟩ :=
    .init ⟨Int.le_refl 0, fun _ => rfl, fun _ => rfl⟩
  have hzero := hinit.step
    ⟨Step.read 0 avatarUpload "7".toList rfl avatarUpload_mem, trivial⟩
  exact hzero.step ⟨Step.read 1 avatarUpload "7".toList rfl avatarUpload_mem, trivial⟩

theorem twoKeyed_zero : twoKeyed.checks 0 = some (avatarCheck, .keyed) := rfl

/-- One of the two is accepted in time. -/
theorem prompt_check_within :
    ∃ s : Limiter, s.Accepted avatarCheck.slot 0 ∧ s.Separates false ∧ s.Limits := by
  obtain ⟨s₁, s₂, s₃, hincr, hexpire, hanswer, _, hchecks, _⟩ :=
    @first_accepted (ruleTable false) _ _ _ twoKeyed_zero rfl
  have hprompt : Prompt twoKeyed (.incr 0) := by
    intro c hc
    obtain ⟨rfl, _⟩ := Prod.mk.inj (Option.some.inj (twoKeyed_zero.symm.trans hc))
    decide
  have hreach : ((limiterSystem (ruleTable false)).guarded Prompt).Reach s₃ :=
    ((twoKeyed_reach.step ⟨hincr, hprompt⟩).step ⟨hexpire, trivial⟩).step ⟨hanswer, trivial⟩
  refine ⟨s₃, ⟨avatarCheck, 1, ?_, rfl⟩, (rate_limits_hold false s₃).1 hreach.of_guarded,
    (rate_limits_hold false s₃).2 hreach⟩
  rw [hchecks]
  rfl

/-- The other stalls for the twenty minutes of the expiry, and is accepted in the same window. -/
theorem stalled_check_accepted :
    ¬ ∀ s, (limiterSystem (ruleTable false)).Reach s → s.Limits := by
  intro hlimits
  obtain ⟨s₁, s₂, s₃, hincr, hexpire, hanswer, hnow, hchecks, hcounter⟩ :=
    @first_accepted (ruleTable false) _ _ _ twoKeyed_zero rfl
  have hthree : (limiterSystem (ruleTable false)).Reach s₃ :=
    ((twoKeyed_reach.of_guarded.step hincr).step hexpire).step hanswer
  have hlate := hthree.step (Step.elapse 1200000000)
  have hkeyed : s₃.checks 1 = some (avatarCheck, .keyed) := by
    rw [hchecks]
    rfl
  have hgone : (s₃.store.elapse 1200000000).counters avatarCheck.slot.key = none := by
    unfold Store.elapse
    dsimp only
    rw [hcounter, hnow]
    decide
  obtain ⟨s₄, s₅, s₆, hincr', hexpire', hanswer', _, hchecks', _⟩ :=
    @first_accepted (ruleTable false) ⟨s₃.store.elapse 1200000000, s₃.checks⟩ 1 _ hkeyed hgone
  have hsix := ((hlate.step hincr').step hexpire').step hanswer'
  have haccepted : ∀ i ∈ ({0, 1} : Finset CheckId), s₆.Accepted avatarCheck.slot i := by
    intro i hi
    refine ⟨avatarCheck, 1, ?_, rfl⟩
    rw [hchecks', hchecks]
    rcases Finset.mem_insert.mp hi with rfl | hone
    · rfl
    · obtain rfl := Finset.mem_singleton.mp hone
      rfl
  exact absurd ((hlimits s₆ hsix).window avatarCheck.slot {0, 1} haccepted) (by decide)

end CampusQuest.RateLimits
