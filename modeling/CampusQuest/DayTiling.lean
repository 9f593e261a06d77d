import CampusQuest.WallClock
import Mathlib.Data.Int.ConditionallyCompleteOrder
import Mathlib.Order.CompletePartialOrder
import Mathlib.Tactic.Linarith

/-!
Which clocks tile the time by their days. The instant of a wall time is the first one at which the
clock has reached it, counted on from before a gap. The days of a clock tile the time exactly when
no change of the clock leads across the beginning of a day.
-/

namespace WallClock

/-! ### The first reading of a wall time -/

/-- The clock reaches the wall time at `r` for the first time. Where it does not show it then, the
wall time is counted on from what the clock showed before. -/
structure FirstShown (wall : ℤ → ℤ) (w instant r : ℤ) : Prop where
  before : ∀ t, t < r → wall t < w
  reached : w ≤ wall r
  shown : wall r = w → instant = r
  skipped : wall r ≠ w → instant = r + (w - (wall (r - 1) + 1))

theorem offsetFrom_since {c : Change} {rest : List Change} {offset t : ℤ}
    (hlater : ∀ c' ∈ rest, c.since < c'.since) (ht : c.since ≤ t) :
    offsetFrom offset (c :: rest) t = offsetFrom c.offset rest t ∧
      (t = c.since → offsetFrom offset (c :: rest) t = c.offset) := by
  have hrest : offsetFrom offset (c :: rest) t = offsetFrom c.offset rest t :=
    if_neg (not_lt.mpr ht)
  refine ⟨hrest, ?_⟩
  rintro rfl
  rw [hrest]
  exact offsetFrom_of_lt hlater

theorem firstShown_read {w offset : ℤ} {changes : List Change}
    (hordered : changes.Pairwise fun c c' => c.since < c'.since) :
    ∃ r, FirstShown (fun t => t + offsetFrom offset changes t) w
      (w - readFrom offset changes w) r := by
  induction changes generalizing offset with
  | nil =>
    refine ⟨w - offset, fun t ht => ?_, ?_, fun _ => rfl, fun h => ?_⟩
    · change t + offset < w
      omega
    · change w ≤ w - offset + offset
      omega
    · refine (h ?_).elim
      change w - offset + offset = w
      omega
  | cons c rest ih =>
    obtain ⟨hlater, hrest⟩ := List.pairwise_cons.mp hordered
    have hearly : ∀ t, t < c.since → offsetFrom offset (c :: rest) t = offset :=
      fun t ht => if_pos ht
    have hsince := (@offsetFrom_since c rest offset c.since hlater le_rfl).2 rfl
    unfold readFrom
    split
    next hread =>
      by_cases hw : w < c.since + offset
      · -- The clock shows the wall time before the change.
        have hr := hearly (w - offset) (by omega)
        refine ⟨w - offset, fun t ht => ?_, ?_, fun _ => rfl, fun h => ?_⟩
        · rw [hearly t (by omega)]
          omega
        · rw [hr]
          omega
        · refine (h ?_).elim
          rw [hr]
          omega
      · -- The change skips it.
        refine ⟨c.since, fun t ht => ?_, ?_, fun h => ?_, fun _ => ?_⟩
        · rw [hearly t ht]
          omega
        · rw [hsince]
          omega
        · rw [hsince] at h
          omega
        · rw [hearly (c.since - 1) (by omega)]
          omega
    next hread =>
      obtain ⟨r, hbefore, hreached, hshown, hskipped⟩ := @ih c.offset hrest
      have hr : c.since ≤ r := by
        by_contra hr
        rw [offsetFrom_of_lt fun c' hc' => lt_trans (not_le.mp hr) (hlater c' hc')] at hreached
        omega
      have hlate : ∀ t, c.since ≤ t → offsetFrom offset (c :: rest) t =
          offsetFrom c.offset rest t := fun t ht => (offsetFrom_since hlater ht).1
      refine ⟨r, fun t ht => ?_, ?_, fun h => ?_, fun h => ?_⟩
      · by_cases hc : t < c.since
        · rw [hearly t hc]
          omega
        · rw [hlate t (not_lt.mp hc)]
          exact hbefore t ht
      · rw [hlate r hr]
        exact hreached
      · rw [hlate r hr] at h
        exact hshown h
      · rw [hlate r hr] at h
        have hafter : c.since ≤ r - 1 := by
          by_contra hfirst
          obtain rfl : r = c.since := by omega
          rw [offsetFrom_of_lt hlater] at h hreached
          omega
        rw [hlate (r - 1) hafter]
        exact hskipped h

/-- A crossing change is a jump of the clock from one side of the wall time to the other. -/
theorem jump_of_crossed {w offset : ℤ} {changes : List Change}
    (hordered : changes.Pairwise fun c c' => c.since < c'.since)
    (hcrossed : CrossedFrom w offset changes) :
    ∃ t, (t - 1 + offsetFrom offset changes (t - 1) + 1 < w ∧
        w < t + offsetFrom offset changes t) ∨
      (t + offsetFrom offset changes t < w ∧
        w < t - 1 + offsetFrom offset changes (t - 1) + 1) := by
  induction changes generalizing offset with
  | nil => exact hcrossed.elim
  | cons c rest ih =>
    obtain ⟨hlater, hrest⟩ := List.pairwise_cons.mp hordered
    rcases hcrossed with hhere | hthere
    · refine ⟨c.since, ?_⟩
      rw [(offsetFrom_since hlater le_rfl).2 rfl,
        show offsetFrom offset (c :: rest) (c.since - 1) = offset from if_pos (by omega)]
      omega
    · obtain ⟨t, ht⟩ := ih hrest hthere
      have hafter : c.since < t := by
        by_contra hearly
        rw [offsetFrom_of_lt (t := t - 1) fun c' hc' =>
          lt_of_lt_of_le (by omega) (hlater c' hc').le] at ht
        by_cases hsince : t = c.since
        · rw [hsince, offsetFrom_of_lt hlater] at ht
          omega
        · rw [offsetFrom_of_lt fun c' hc' => lt_trans (by omega) (hlater c' hc')] at ht
          omega
      refine ⟨t, ?_⟩
      rw [(offsetFrom_since hlater (by omega : c.since ≤ t - 1)).1,
        (offsetFrom_since hlater (by omega : c.since ≤ t)).1]
      exact ht

theorem offsetFrom_mem {offset : ℤ} {changes : List Change} (t : ℤ) :
    offsetFrom offset changes t = offset ∨ ∃ c ∈ changes, offsetFrom offset changes t = c.offset := by
  induction changes generalizing offset with
  | nil => exact Or.inl rfl
  | cons c rest ih =>
    unfold offsetFrom
    split
    next => exact Or.inl rfl
    next =>
      rcases @ih c.offset with h | ⟨c', hc', h⟩
      · exact Or.inr ⟨c, List.mem_cons_self, h⟩
      · exact Or.inr ⟨c', List.mem_cons_of_mem _ hc', h⟩

namespace Zone

variable {z : Zone} {length t w : ℤ}

theorem firstShown (z : Zone) (w : ℤ) : ∃ r, FirstShown z.wall w (z.instant w) r :=
  firstShown_read z.ordered

theorem jump (h : z.Crossed w) :
    ∃ t, (z.wall (t - 1) + 1 < w ∧ w < z.wall t) ∨ (z.wall t < w ∧ w < z.wall (t - 1) + 1) :=
  jump_of_crossed z.ordered h

/-- The instant of a wall time parts the time by the clock exactly when no change crosses it. -/
theorem parts_iff : (∀ t, z.instant w ≤ t ↔ w ≤ z.wall t) ↔ ¬ z.Crossed w := by
  refine ⟨fun h hcrossed => ?_, fun h t => z.instant_le_iff h⟩
  obtain ⟨t, ⟨hbefore, hafter⟩ | ⟨hafter, hbefore⟩⟩ := jump hcrossed
  · -- The clock skips the wall time, which is then counted on past the jump.
    have hreached := (h t).mpr hafter.le
    have hunreached : ¬ z.instant w ≤ t - 1 := fun hle => by
      have := (h (t - 1)).mp hle
      omega
    obtain ⟨r, hfirst⟩ := z.firstShown w
    have hr := (h r).mpr hfirst.reached
    have hr' : ¬ z.instant w ≤ r - 1 := fun hle => by
      have := (h (r - 1)).mp hle
      have := hfirst.before (r - 1) (by omega)
      omega
    obtain rfl : r = t := by omega
    have hskipped := hfirst.skipped (by omega)
    omega
  · have hshown := (h (t - 1)).mpr (by omega)
    have hback := (h t).mp (by omega)
    omega

/-- The clock is at all times less than the length ahead or behind. -/
structure Bounded (z : Zone) (length : ℤ) : Prop where
  offset : -length < z.offset ∧ z.offset < length
  changes : ∀ c ∈ z.changes, -length < c.offset ∧ c.offset < length

theorem Bounded.ahead (h : z.Bounded length) (t : ℤ) :
    t - length < z.wall t ∧ z.wall t < t + length := by
  unfold wall
  rcases @offsetFrom_mem z.offset z.changes t with heq | ⟨c, hc, heq⟩
  · have := h.offset
    omega
  · have := h.changes c hc
    omega

/-- So is the instant by which a wall time is read. -/
theorem Bounded.instant_near (h : z.Bounded length) (w : ℤ) :
    w - length < z.instant w ∧ z.instant w < w + length := by
  obtain ⟨r, hfirst⟩ := z.firstShown w
  by_cases hshown : z.wall r = w
  · have hr := hfirst.shown hshown
    have := h.ahead r
    omega
  · have hr := hfirst.skipped hshown
    have := h.ahead (r - 1)
    omega

def span (z : Zone) (length d : ℤ) : Set ℤ :=
  Set.Ico (z.dayStart length d) (z.dayStart length (d + 1))

/-- Every instant is within its day, and days that share an instant are the same time. -/
structure Tiled (z : Zone) (length : ℤ) : Prop where
  within : ∀ t, t ∈ z.span length (z.day length t)
  apart : ∀ t t' s, s ∈ z.span length (z.day length t) → s ∈ z.span length (z.day length t') →
    z.span length (z.day length t) = z.span length (z.day length t')

theorem le_day_iff (hlength : 0 < length) {d : ℤ} : d ≤ z.day length t ↔ d * length ≤ z.wall t :=
  Int.le_ediv_iff_mul_le hlength

theorem day_lt_iff (hlength : 0 < length) {d : ℤ} : z.day length t < d ↔ z.wall t < d * length :=
  Int.ediv_lt_iff_lt_mul hlength

theorem Tiled.start_eq (h : z.Tiled length) {t t' s : ℤ}
    (hs : s ∈ z.span length (z.day length t)) (hs' : s ∈ z.span length (z.day length t')) :
    z.dayStart length (z.day length t) = z.dayStart length (z.day length t') := by
  have hsame := h.apart t t' s hs hs'
  have hleft : z.dayStart length (z.day length t) ∈ z.span length (z.day length t') :=
    hsame ▸ Set.mem_Ico.mpr ⟨le_rfl, lt_of_le_of_lt hs.1 hs.2⟩
  have hright : z.dayStart length (z.day length t') ∈ z.span length (z.day length t) :=
    hsame ▸ Set.mem_Ico.mpr ⟨le_rfl, lt_of_le_of_lt hs'.1 hs'.2⟩
  exact le_antisymm hright.1 hleft.1

/-- The instant of the first reading is the one at which the wall time has been reached and had
not been before. -/
theorem firstShown_at {r : ℤ} (hbefore : ∀ s, s < r → z.wall s < w) (hreached : w ≤ z.wall r) :
    FirstShown z.wall w (z.instant w) r := by
  obtain ⟨r', hfirst⟩ := z.firstShown w
  have hr' : r' = r := by
    rcases lt_trichotomy r' r with hlt | heq | hgt
    · exact (not_lt.mpr hfirst.reached (hbefore r' hlt)).elim
    · exact heq
    · exact (not_lt.mpr hreached (hfirst.before r hgt)).elim
  exact hr' ▸ hfirst

/-- A clock that jumps over the whole of a day for the first time lands on the beginning of the
day after it. -/
theorem Tiled.landed (h : z.Tiled length) (hlength : 0 < length) (hbounded : z.Bounded length)
    {r d : ℤ} (hbefore : ∀ s, s < r → z.wall s < (d + 1) * length)
    (hlate : d + 2 ≤ z.day length r) :
    z.day length (r - 1) = d ∧ z.day length r = d + 2 ∧ z.dayStart length (d + 2) = r := by
  obtain ⟨e, he⟩ : ∃ e, e = z.day length r := ⟨_, rfl⟩
  rw [← he] at hlate ⊢
  have hmul : (d + 2) * length ≤ e * length := Int.mul_le_mul_of_nonneg_right hlate hlength.le
  have hshown : e * length ≤ z.wall r := (le_day_iff hlength).mp he.le
  have hfirst : FirstShown z.wall (e * length) (z.instant (e * length)) r :=
    firstShown_at (fun s hs => by have := hbefore s hs; linarith) hshown
  have hwithin := (h.within r).1
  rw [← he] at hwithin
  change z.instant (e * length) ≤ r at hwithin
  have hlast := hbefore (r - 1) (by omega)
  have hexact : z.wall r = e * length := by
    by_contra hne
    have hstart := hfirst.skipped hne
    linarith
  -- No clock is set forward by two lengths.
  have hjump : (e - 2) * length < z.wall (r - 1) + 1 := by
    have hahead := hbounded.ahead (r - 1)
    have hahead' := hbounded.ahead r
    linarith
  have hle : e - 2 ≤ z.day length (r - 1) := (le_day_iff hlength).mpr (by omega)
  have hlt : z.day length (r - 1) < d + 1 := (day_lt_iff hlength).mpr hlast
  obtain rfl : e = d + 2 := by omega
  exact ⟨by omega, rfl, hfirst.shown hexact⟩

/-- So the next day has begun by then: the two days around it would share the instant. -/
theorem Tiled.begun (h : z.Tiled length) (hlength : 0 < length) (hbounded : z.Bounded length)
    {r d : ℤ} (hbefore : ∀ s, s < r → z.wall s < (d + 1) * length)
    (hlate : d + 2 ≤ z.day length r) : z.dayStart length (d + 1) ≤ r := by
  by_contra hopen
  obtain ⟨hday, hlands, hstart⟩ := h.landed hlength hbounded hbefore hlate
  have hearlier := (h.within (r - 1)).1
  have hshared : r ∈ z.span length (z.day length (r - 1)) :=
    ⟨by omega, by rw [hday]; exact not_le.mp hopen⟩
  have hsame := h.start_eq hshared (h.within r)
  rw [hlands, hstart] at hsame
  omega

/-- The days of a tiled clock never go back. -/
theorem Tiled.day_le (h : z.Tiled length) (hlength : 0 < length) (hbounded : z.Bounded length)
    (t : ℤ) : z.day length (t - 1) ≤ z.day length t := by
  by_contra hback
  obtain ⟨d, hd⟩ : ∃ d, d = z.day length t := ⟨_, rfl⟩
  rw [← hd] at hback
  have hnext : (d + 1) * length ≤ z.wall (t - 1) := (le_day_iff hlength).mp (by omega)
  obtain ⟨r, hfirst⟩ := z.firstShown ((d + 1) * length)
  have hr : r ≤ t - 1 := by
    by_contra hlater
    have := hfirst.before (t - 1) (by omega)
    omega
  have hopen : t < z.dayStart length (d + 1) := hd ▸ (h.within t).2
  change t < z.instant ((d + 1) * length) at hopen
  have hskip : z.wall r ≠ (d + 1) * length := by
    intro hshown
    have := hfirst.shown hshown
    omega
  have hreached := hfirst.reached
  refine not_lt.mpr (h.begun hlength hbounded hfirst.before ?_) (show r < z.instant _ by omega)
  -- The day of the jump is not the next one, which begins after it.
  have hle : d + 1 ≤ z.day length r := (le_day_iff hlength).mpr hreached
  have hne : z.day length r ≠ d + 1 := by
    intro heq
    have hwithin := (h.within r).1
    rw [heq] at hwithin
    change z.instant ((d + 1) * length) ≤ r at hwithin
    omega
  omega

theorem Tiled.day_mono (h : z.Tiled length) (hlength : 0 < length) (hbounded : z.Bounded length)
    {s t : ℤ} (hst : s ≤ t) : z.day length s ≤ z.day length t := by
  induction t, hst using Int.leInduction with
  | base => exact le_rfl
  | succ t _ ih =>
    have := h.day_le hlength hbounded (t + 1)
    rw [Int.add_sub_cancel] at this
    exact ih.trans this

/-- The days of a clock tile the time exactly when no change of it leads across the beginning of
a day. -/
theorem tiled_iff (hlength : 0 < length) (hbounded : z.Bounded length) :
    z.Tiled length ↔ ∀ d, ¬ z.Crossed (d * length) := by
  constructor
  · intro h D hcrossed
    obtain ⟨t, ⟨hbefore, hafter⟩ | ⟨hafter, hbefore⟩⟩ := jump hcrossed
    · -- The clock is set forward over the beginning of the day.
      obtain ⟨d, hd⟩ : ∃ d, d = z.day length (t - 1) := ⟨_, rfl⟩
      have hD : d < D := hd ▸ (day_lt_iff hlength).mpr (by omega)
      have hmul : (d + 1) * length ≤ D * length :=
        Int.mul_le_mul_of_nonneg_right (by omega) hlength.le
      have hearly : ∀ s, s < t → z.wall s < (d + 1) * length := by
        intro s hs
        refine (day_lt_iff hlength).mp ?_
        have := h.day_mono hlength hbounded (show s ≤ t - 1 by omega)
        omega
      -- The day cannot be the one at the landing, since it begins only after it.
      have hshown : D ≤ z.day length t := (le_day_iff hlength).mpr hafter.le
      have hfirst : FirstShown z.wall (D * length) (z.instant (D * length)) t :=
        firstShown_at (fun s hs => by have := hearly s hs; linarith) hafter.le
      have hopen : t < z.dayStart length D := by
        have hskipped := hfirst.skipped hafter.ne'
        change t < z.instant (D * length)
        omega
      have hne : z.day length t ≠ D := by
        intro heq
        have hwithin := (h.within t).1
        rw [heq] at hwithin
        omega
      have hlate : d + 2 ≤ z.day length t := by omega
      obtain ⟨_, hlands, _⟩ := h.landed hlength hbounded hearly hlate
      obtain rfl : D = d + 1 := by omega
      exact not_lt.mpr (h.begun hlength hbounded hearly hlate) hopen
    · have hback := h.day_le hlength hbounded t
      have hlow : z.day length t < D := (day_lt_iff hlength).mpr hafter
      have hhigh : D ≤ z.day length (t - 1) := (le_day_iff hlength).mpr (by omega)
      omega
  · intro h
    have hregular := regular_of_uncrossed hlength h
    refine ⟨fun t => (hregular t).within_iff.mpr rfl, fun t t' s hs hs' => ?_⟩
    rw [(hregular s).within_iff.mp hs, (hregular s).within_iff.mp hs']

end Zone

end WallClock
