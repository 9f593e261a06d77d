import CampusQuest.Vocabulary
import CampusQuest.WallClock

/-!
The natural day of the business timezone. `business_day_window` spans from one local
midnight to the next, each read as an instant by the zone.
-/

namespace CampusQuest.Lifecycle

open WallClock

def dayLength : Duration := hours 24

def localDate (zone : Zone) (now : Instant) : ℤ := zone.day dayLength now

/-- `datetime.combine(date, time.min, tzinfo=timezone)` as an instant. -/
def localMidnight (zone : Zone) (date : ℤ) : Instant := zone.dayStart dayLength date

def businessDayWindow (zone : Zone) (now : Instant) : Instant × Instant :=
  (localMidnight zone (localDate zone now), localMidnight zone (localDate zone now + 1))

/-- At this instant the local midnights that have passed are those up to the date on the
wall clock. -/
abbrev NaturalDay (zone : Zone) (now : Instant) : Prop := zone.Regular dayLength now

/-- A zone whose clock changes cross no local midnight keeps every natural day. -/
theorem naturalDay_of_uncrossed {zone : Zone} (h : ∀ date, ¬ zone.Crossed (date * dayLength))
    (now : Instant) : NaturalDay zone now :=
  Zone.regular_of_uncrossed (by decide) h now

/-- An instant of a natural day lies in its own window, and in no window of another day. -/
theorem NaturalDay.within_iff {zone : Zone} {now t : Instant} (h : NaturalDay zone now) :
    ((businessDayWindow zone t).1 ≤ now ∧ now < (businessDayWindow zone t).2) ↔
      localDate zone t = localDate zone now :=
  Zone.Regular.within_iff h

theorem NaturalDay.window_eq {zone : Zone} {now t : Instant} (h : NaturalDay zone now)
    (hwithin : (businessDayWindow zone t).1 ≤ now ∧ now < (businessDayWindow zone t).2) :
    businessDayWindow zone t = businessDayWindow zone now := by
  unfold businessDayWindow
  rw [h.within_iff.mp hwithin]

end CampusQuest.Lifecycle
