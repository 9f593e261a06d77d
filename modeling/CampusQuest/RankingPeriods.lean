import CampusQuest.BusinessDay
import CampusQuest.Calendar

/-!
The business days and months of the rankings. An instant is bucketed by what the wall
clock of the zone shows, and a period spans the instants from its first local midnight to
the next. The two agree at an instant whose local midnights have all passed in order.
-/

namespace CampusQuest.Rankings

open WallClock Calendar
open Lifecycle (dayLength localDate localMidnight NaturalDay)

def businessDay (zone : Zone) (effectiveAt : Instant) : ℤ := localDate zone effectiveAt

def businessMonth (zone : Zone) (effectiveAt : Instant) : ℤ := monthOf (localDate zone effectiveAt)

def dayBounds (zone : Zone) (day : ℤ) : Instant × Instant :=
  (localMidnight zone day, localMidnight zone (day + 1))

def monthBounds (zone : Zone) (month : ℤ) : Instant × Instant :=
  (localMidnight zone (firstDay month), localMidnight zone (firstDay (month + 1)))

inductive Board
  | daily (day : ℤ)
  | monthly (month : ℤ)
  | all
  deriving DecidableEq

namespace Board

def startsAt (zone : Zone) : Board → Option Instant
  | daily day => some (dayBounds zone day).1
  | monthly month => some (monthBounds zone month).1
  | all => none

def endsAt (zone : Zone) : Board → Option Instant
  | daily day => some (dayBounds zone day).2
  | monthly month => some (monthBounds zone month).2
  | all => none

def Contains (zone : Zone) (b : Board) (instant : Instant) : Prop :=
  (∀ start, b.startsAt zone = some start → start ≤ instant) ∧
    ∀ stop, b.endsAt zone = some stop → instant < stop

end Board

/-- The boards that an entry touches: its day, its month and the all-time one. -/
def affectedBoards (zone : Zone) (effectiveAt : Instant) : List Board :=
  [.daily (businessDay zone effectiveAt), .monthly (businessMonth zone effectiveAt), .all]

/-- The boards whose range contains an instant are those that it is bucketed to. -/
def Placed (zone : Zone) (instant : Instant) : Prop :=
  ∀ b : Board, b.Contains zone instant ↔ b ∈ affectedBoards zone instant

theorem placed_iff {zone : Zone} {instant : Instant} : Placed zone instant ↔
    (∀ day, ((dayBounds zone day).1 ≤ instant ∧ instant < (dayBounds zone day).2) ↔
      day = businessDay zone instant) ∧
    ∀ month, ((monthBounds zone month).1 ≤ instant ∧ instant < (monthBounds zone month).2) ↔
      month = businessMonth zone instant := by
  constructor
  · intro h
    refine ⟨fun day => ?_, fun month => ?_⟩
    · have hday := h (.daily day)
      simpa [Board.Contains, Board.startsAt, Board.endsAt, affectedBoards] using hday
    · have hmonth := h (.monthly month)
      simpa [Board.Contains, Board.startsAt, Board.endsAt, affectedBoards] using hmonth
  · rintro ⟨hday, hmonth⟩ b
    cases b with
    | daily day => simpa [Board.Contains, Board.startsAt, Board.endsAt, affectedBoards] using hday day
    | monthly month =>
      simpa [Board.Contains, Board.startsAt, Board.endsAt, affectedBoards] using hmonth month
    | all => simp [Board.Contains, Board.startsAt, Board.endsAt, affectedBoards]

/-- Where the local midnights have passed in order, ranges and buckets agree. -/
theorem placed_of_naturalDay {zone : Zone} {instant : Instant} (h : NaturalDay zone instant) :
    Placed zone instant := by
  refine placed_iff.mpr ⟨fun day => Zone.Regular.within_iff h, fun month => ?_⟩
  have hstart : localMidnight zone (firstDay month) ≤ instant ↔
      firstDay month ≤ localDate zone instant := h (firstDay month)
  have hstop : instant < localMidnight zone (firstDay (month + 1)) ↔
      localDate zone instant < firstDay (month + 1) := by
    rw [← not_le, ← not_le]
    exact not_congr (h (firstDay (month + 1)))
  exact (and_congr hstart hstop).trans monthOf_eq_iff

/-- The zones of the deployment, and all others whose clock changes cross no midnight. -/
theorem placed_of_uncrossed {zone : Zone} (h : ∀ date, ¬ zone.Crossed (date * dayLength))
    (instant : Instant) : Placed zone instant :=
  placed_of_naturalDay (Lifecycle.naturalDay_of_uncrossed h instant)

end CampusQuest.Rankings
