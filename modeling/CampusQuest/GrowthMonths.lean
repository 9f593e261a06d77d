import CampusQuest.BusinessPeriods
import CampusQuest.RankingReads

/-!
Whether the rank figures of one user agree. Those of one board always do. The best month is at least
as good as the current one when the bucket of every instant is the month whose bounds contain it,
and that fails in zones where the clock is changed across the first midnight of a month.
-/

namespace CampusQuest.RankingReads

open Calendar Rankings SortedSets WallClock
open Lifecycle (dayLength localDate localMidnight)
open Points (PointsLedger)

/-! ### Bounds and buckets of the months -/

section Buckets

variable {zone : ZoneInfo} {month month' : ℤ} {t : Instant}

theorem firstMidnight_near (zone : ZoneInfo) (month : ℤ) :
    firstDay month * dayLength - dayLength < localMidnight zone.toZone (firstDay month) ∧
      localMidnight zone.toZone (firstDay month) < firstDay month * dayLength + dayLength :=
  zone.bounded.instant_near _

theorem firstMidnight_lt (zone : ZoneInfo) (month : ℤ) :
    localMidnight zone.toZone (firstDay month) + dayLength <
      localMidnight zone.toZone (firstDay (month + 1)) := by
  have hthis := (firstMidnight_near zone month).2
  have hnext := (firstMidnight_near zone (month + 1)).1
  have hlength : (firstDay month + 28) * dayLength ≤ firstDay (month + 1) * dayLength :=
    Int.mul_le_mul_of_nonneg_right (firstDay_succ month) (by decide)
  have hday : (0 : ℤ) < dayLength := by decide
  linarith

theorem firstMidnight_mono (zone : ZoneInfo) : Monotone fun month =>
    localMidnight zone.toZone (firstDay month) :=
  monotone_int_of_le_succ fun month => by
    have := firstMidnight_lt zone month
    have hday : (0 : ℤ) < dayLength := by decide
    linarith

/-- No instant lies within the bounds of two months. -/
theorem during_months (h : t ∈ during (monthBounds zone.toZone month))
    (h' : t ∈ during (monthBounds zone.toZone month')) : month' = month := by
  by_contra hne
  rcases lt_or_gt_of_ne hne with hlt | hgt
  · have hmono := firstMidnight_mono zone (show month' + 1 ≤ month by omega)
    exact absurd (lt_of_lt_of_le h'.2 (hmono.trans h.1)) (lt_irrefl _)
  · have hmono := firstMidnight_mono zone (show month + 1 ≤ month' by omega)
    exact absurd (lt_of_lt_of_le h.2 (hmono.trans h'.1)) (lt_irrefl _)

/-- Where no change crosses the first midnight of a month, the bounds are the buckets. -/
theorem businessMonth_of_during
    (hcrossed : ∀ month, ¬ zone.Crossed (firstDay month * dayLength))
    (h : t ∈ during (monthBounds zone.toZone month)) : businessMonth zone.toZone t = month := by
  have hparts : ∀ month, localMidnight zone.toZone (firstDay month) ≤ t ↔
      firstDay month ≤ localDate zone.toZone t := fun month =>
    (zone.instant_le_iff (hcrossed month)).trans (Zone.le_day_iff (by decide)).symm
  have hstart := (hparts month).mp h.1
  have hstop : ¬ firstDay (month + 1) ≤ localDate zone.toZone t := fun hle =>
    absurd ((hparts (month + 1)).mpr hle) (not_le.mpr h.2)
  exact (monthOf_eq_iff.mp ⟨hstart, not_le.mp hstop⟩).symm

/-- Where one does, an instant is bucketed to a month whose bounds do not contain it. -/
theorem exists_misplaced (hcrossed : zone.Crossed (firstDay month * dayLength)) :
    ∃ t month, t ∈ during (monthBounds zone.toZone month) ∧
      businessMonth zone.toZone t ≠ month := by
  have hnot := mt Zone.parts_iff.mp (not_not.mpr hcrossed)
  obtain ⟨t, ht⟩ := not_forall.mp hnot
  have hnear := firstMidnight_near zone month
  have hahead := zone.bounded.ahead t
  have hday : (0 : ℤ) < dayLength := by decide
  have hdate : firstDay month ≤ localDate zone.toZone t ↔
      firstDay month * dayLength ≤ zone.wall t :=
    Zone.le_day_iff hday
  have hbucket := firstDay_le_iff (localDate zone.toZone t) month
  change ¬ (localMidnight zone.toZone (firstDay month) ≤ t ↔ _) at ht
  by_cases hstarted : localMidnight zone.toZone (firstDay month) ≤ t
  · -- The clock shows an earlier month again.
    have hshown : zone.wall t < firstDay month * dayLength := by
      by_contra hle
      exact ht (iff_of_true hstarted (not_lt.mp hle))
    refine ⟨t, month, ⟨hstarted, ?_⟩, fun heq => ?_⟩
    · have hnext := (firstMidnight_near zone (month + 1)).1
      have hlength : (firstDay month + 28) * dayLength ≤ firstDay (month + 1) * dayLength :=
        Int.mul_le_mul_of_nonneg_right (firstDay_succ month) hday.le
      change t < localMidnight zone.toZone (firstDay (month + 1))
      linarith
    · exact absurd (hdate.mp (hbucket.mpr heq.ge)) (not_le.mpr hshown)
  · -- The clock already shows the month.
    have hshown : firstDay month * dayLength ≤ zone.wall t := by
      by_contra hlt
      exact ht (iff_of_false hstarted hlt)
    refine ⟨t, month - 1, ⟨?_, ?_⟩, fun heq => ?_⟩
    · have hprevious := (firstMidnight_near zone (month - 1)).2
      have hsucc := firstDay_succ (month - 1)
      rw [Int.sub_add_cancel] at hsucc
      have hlength : (firstDay (month - 1) + 28) * dayLength ≤ firstDay month * dayLength :=
        Int.mul_le_mul_of_nonneg_right hsucc hday.le
      change localMidnight zone.toZone (firstDay (month - 1)) ≤ t
      linarith
    · change t < localMidnight zone.toZone (firstDay (month - 1 + 1))
      rw [Int.sub_add_cancel]
      exact not_le.mp hstarted
    · have := hbucket.mp (hdate.mpr hshown)
      change monthOf (localDate zone.toZone t) = month - 1 at heq
      omega

/-- Every month is current at some time. -/
theorem exists_current (zone : ZoneInfo) (month : ℤ) :
    ∃ now, businessMonth zone.toZone now = month := by
  have hday : (0 : ℤ) < dayLength := by decide
  refine ⟨(firstDay month + 14) * dayLength, (monthOf_eq_iff.mp ⟨?_, ?_⟩).symm⟩
  · refine (Zone.le_day_iff hday).mpr ?_
    have := (zone.bounded.ahead ((firstDay month + 14) * dayLength)).1
    linarith
  · refine (Zone.day_lt_iff hday).mpr ?_
    have := (zone.bounded.ahead ((firstDay month + 14) * dayLength)).2
    have hlength : (firstDay month + 28) * dayLength ≤ firstDay (month + 1) * dayLength :=
      Int.mul_le_mul_of_nonneg_right (firstDay_succ month) hday.le
    linarith

end Buckets

/-! ### All figures of one user -/

/-- The rank figures agree, for every ledger, all boards that hold its aggregates in some order of
the ties, every directory of profiles, and every user, radius and time. -/
structure RanksAgree (zone : Zone) : Prop where
  around : ∀ (tie : UserId → UserId → Prop) (ledger : List PointsLedger)
    (boards : Board → Leaderboard tie), Projected zone ledger boards →
    ∀ (directory : UserDirectory) (b : Board) (user : UserId) (radius limit : ℤ), 0 ≤ radius →
      1 ≤ limit → (boards b).rows.length ≤ limit →
      ∃ whole, top directory (boards b) limit = .ok whole ∧
        aroundMe directory (boards b) user radius = .ok (whole.filter fun e =>
          (myStanding (boards b) user).1.any fun rank => |e.rank - rank| ≤ radius) ∧
        ∀ rank, (myStanding (boards b) user).1 = some rank →
          ∃ score, (myStanding (boards b) user).2 = some score ∧
            (user, score) ∈ rangeScores ledger (b.startsAt zone) (b.endsAt zone) ∧
            ∀ profile, directory user = some profile →
              ⟨profile.nickname, profile.displayHonorTitle, score, rank⟩ ∈ whole
  unranked : ∀ (tie : UserId → UserId → Prop) (ledger : List PointsLedger)
    (boards : Board → Leaderboard tie), Projected zone ledger boards → ∀ b user,
      myStanding (boards b) user = (none, none) ↔
        ¬ Ranked ledger user (b.startsAt zone) (b.endsAt zone)
  month : ∀ (tie : UserId → UserId → Prop) (ledger : List PointsLedger)
    (boards : Board → Leaderboard tie) (user : UserId) (now : Instant),
      (growthProfile zone ledger boards user now).monthRank =
        (myStanding (boards (.monthly (businessMonth zone now))) user).1
  best : ∀ (tie : UserId → UserId → Prop) (ledger : List PointsLedger)
    (boards : Board → Leaderboard tie), Projected zone ledger boards →
    ∀ (user : UserId) (now : Instant) (rank : ℤ),
      (growthProfile zone ledger boards user now).monthRank = some rank →
      ∃ best ≤ rank, (growthProfile zone ledger boards user now).bestMonthRank = some best

section Agreement

variable {tie : UserId → UserId → Prop} {zone : Zone} {ledger : List PointsLedger}
  {boards : Board → Leaderboard tie} {b : Board} {user : UserId}

theorem myStanding_none (h : Projected zone ledger boards) :
    myStanding (boards b) user = (none, none) ↔
      ¬ Ranked ledger user (b.startsAt zone) (b.endsAt zone) := by
  constructor
  · intro hnone hranked
    have hmem := (h b user _).mpr (mem_rangeScores.mpr ⟨hranked, rfl⟩)
    have hscore : (myStanding (boards b) user).2 = some _ := SortedSet.zscore_eq_some.mpr hmem
    rw [hnone] at hscore
    cases hscore
  · intro hunranked
    have hscore : (myStanding (boards b) user).2 = none := by
      rw [Option.eq_none_iff_forall_ne_some]
      intro score hscore
      have hmem := (h b user score).mp (SortedSet.zscore_eq_some.mp hscore)
      exact hunranked (mem_rangeScores.mp hmem).1
    have hrank := myStanding_isSome (boards b) user
    rw [hscore, Option.isSome_none, Option.isSome_eq_false_iff, Option.isNone_iff_eq_none] at hrank
    exact Prod.ext hrank hscore

def boardsOf (zone : Zone) (ledger : List PointsLedger) (b : Board) : Leaderboard (· < ·) :=
  .ofRows (rangeScores ledger (b.startsAt zone) (b.endsAt zone)) rangeScores_nodup

theorem projected_boardsOf (zone : Zone) (ledger : List PointsLedger) :
    Projected zone ledger (boardsOf zone ledger) :=
  fun _ _ _ => SortedSet.mem_ofRows

/-- The month of a row that is within its bounds is among those of the best rank. -/
theorem bestMonthRank_le {zone : ZoneInfo} {boards : Board → Leaderboard tie}
    (hcrossed : ∀ month, ¬ zone.Crossed (firstDay month * dayLength))
    (h : Projected zone.toZone ledger boards) {month rank : ℤ}
    (hrank : monthRank boards user month = some rank) :
    ∃ best ≤ rank, bestMonthRank zone.toZone ledger user = some best := by
  obtain ⟨position, hle, hposition⟩ := monthPosition_le h hrank
  obtain ⟨score, hscore, _⟩ := Option.map_eq_some_iff.mp hposition
  obtain ⟨⟨e, he, _, hrow⟩, _⟩ := mem_rangeScores.mp (mem_of_lookup_eq_some hscore)
  obtain ⟨hranking, t, ht, hduring⟩ := rangeFilters_during.mp hrow
  have hmonth := mem_months.mpr ⟨e, he, hranking, t, ht, businessMonth_of_during hcrossed hduring⟩
  obtain ⟨best, hbest, hfold⟩ := foldl_betterMonth_le.2 month hmonth position hposition
  exact ⟨best, hbest.trans hle, hfold⟩

/-- One row outside the bounds of the month that it is bucketed to has no best month. -/
theorem bestMonthRank_misplaced {zone : ZoneInfo} {e : PointsLedger} {t : Instant} {month : ℤ}
    (heffective : e.rankingEffectiveAt = some t)
    (hduring : t ∈ during (monthBounds zone.toZone month))
    (hmisplaced : businessMonth zone.toZone t ≠ month) :
    bestMonthRank zone.toZone [e] e.userId = none := by
  refine foldl_betterMonth_none fun month' hmonth' => ?_
  obtain ⟨e', he', _, t', ht', hbucket⟩ := mem_months.mp hmonth'
  rw [List.mem_singleton.mp he'] at ht'
  obtain rfl := Option.some.inj (heffective.symm.trans ht')
  obtain rfl := hbucket
  cases hposition : monthPosition zone.toZone [e] e.userId (businessMonth zone.toZone t) with
  | none => rfl
  | some position =>
    obtain ⟨score, hscore, _⟩ := Option.map_eq_some_iff.mp hposition
    obtain ⟨⟨x, hx, _, hrow⟩, _⟩ := mem_rangeScores.mp (mem_of_lookup_eq_some hscore)
    rw [List.mem_singleton.mp hx] at hrow
    obtain ⟨_, s, hs, hduring'⟩ := rangeFilters_during.mp hrow
    rw [← Option.some.inj (heffective.symm.trans hs)] at hduring'
    exact absurd (during_months hduring hduring') hmisplaced

end Agreement

/-- The figures agree exactly in the zones where no clock change crosses the first midnight of a
month. -/
theorem ranks_agree_iff (zone : ZoneInfo) :
    RanksAgree zone.toZone ↔ ∀ month, ¬ zone.Crossed (firstDay month * dayLength) := by
  constructor
  · intro h month hcrossed
    obtain ⟨t, month, hduring, hmisplaced⟩ := exists_misplaced hcrossed
    obtain ⟨now, rfl⟩ := exists_current zone month
    obtain ⟨e, he⟩ : ∃ e, e = rewardEntry 1 1 10 (by decide) t := ⟨_, rfl⟩
    have heffective : e.rankingEffectiveAt = some t := by
      rw [he]
      rfl
    have hranked : Ranked [e] e.userId (some (monthBounds zone.toZone _).1)
        (some (monthBounds zone.toZone _).2) :=
      ⟨e, List.mem_singleton_self e, rfl,
        rangeFilters_during.mpr ⟨by rw [he]; rfl, t, heffective, hduring⟩⟩
    have hprojected := projected_boardsOf zone.toZone [e]
    cases hrank : (myStanding (boardsOf zone.toZone [e]
        (.monthly (businessMonth zone.toZone now))) e.userId).1 with
    | none =>
      have hscore := myStanding_isSome (boardsOf zone.toZone [e]
        (.monthly (businessMonth zone.toZone now))) e.userId
      rw [hrank, Option.isSome_none, eq_comm, Option.isSome_eq_false_iff,
        Option.isNone_iff_eq_none] at hscore
      exact (myStanding_none hprojected).mp (Prod.ext hrank hscore) hranked
    | some rank =>
      obtain ⟨best, _, hbest⟩ := h.best _ _ _ hprojected e.userId now rank hrank
      have hnone := bestMonthRank_misplaced heffective hduring hmisplaced
      change bestMonthRank zone.toZone [e] e.userId = some best at hbest
      rw [hnone] at hbest
      cases hbest
  · intro hcrossed
    exact
      { around := fun tie ledger boards hboards directory b user radius limit hradius hlimit hall =>
          ⟨wholeBoard directory (boards b), top_whole hlimit hall, aroundMe_eq hradius,
            fun rank hrank => by
              obtain ⟨score, hscore, hmem, hentry⟩ := myStanding_eq hrank
              exact ⟨score, hscore, (hboards b user score).mp hmem, hentry⟩⟩
        unranked := fun tie ledger boards hboards b user => myStanding_none hboards
        month := fun tie ledger boards user now => rfl
        best := fun tie ledger boards hboards user now rank hrank =>
          bestMonthRank_le hcrossed hboards hrank }

/-- St. John's in the autumn of 2009, when the clock went back from the first minute of November
into October. -/
def november : ZoneInfo where
  offset := -9000000000
  changes := [⟨1257042660000000, -12600000000⟩]
  ordered := List.pairwise_singleton _ _
  bounded := ⟨by decide, by decide⟩

/-- Two rewards in the middle of October, and one when the clock showed October again. -/
def lateOctober : List PointsLedger :=
  [rewardEntry 8 1 100 (by decide) 1255600000000000,
    rewardEntry 7 2 10 (by decide) 1255600000000000,
    rewardEntry 7 3 10 (by decide) 1257042780000000]

/-- The user leads the board of November, and the best month is October, in second place. -/
theorem ranks_disagree : ¬ ∀ zone : ZoneInfo, RanksAgree zone.toZone := by
  intro h
  have hrank : (growthProfile november.toZone lateOctober (boardsOf november.toZone lateOctober) 7
      1258300000000000).monthRank = some 1 := by decide +kernel
  have hbest : (growthProfile november.toZone lateOctober (boardsOf november.toZone lateOctober) 7
      1258300000000000).bestMonthRank = some 2 := by decide +kernel
  have hprojected := projected_boardsOf november.toZone lateOctober
  obtain ⟨best, hle, heq⟩ := (h november).best _ _ _ hprojected 7 1258300000000000 1 hrank
  obtain rfl := Option.some.inj (hbest.symm.trans heq)
  exact absurd hle (by decide)

end CampusQuest.RankingReads
