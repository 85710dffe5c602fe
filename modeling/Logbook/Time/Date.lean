/-!
# Calendar dates

Days are counted from 1 January 1970. Years are those of the Gregorian calendar, extended in both
directions, with a year zero.
-/

namespace Logbook.Time

/-- A day of the calendar, with its month and its place in the month counted from one. -/
structure Date where
  year : Int
  month : Nat
  day : Nat
  deriving DecidableEq, Repr

/-- Whether a year has 366 days. -/
def isLeapYear (year : Int) : Bool := year % 4 == 0 && (year % 100 != 0 || year % 400 == 0)

/-- The number of days before 1 January of `year`. -/
def daysBeforeYear (year : Int) : Int :=
  let past := year - 1
  365 * (year - 1970) + (past / 4 - past / 100 + past / 400 - 477)

/-- The year of a day. Counted in years that begin in March, leap days come last, so an era of four
hundred years divides evenly up to its last day. -/
def marchYear (day : Int) : Int × Nat :=
  let shifted := day + 719468
  let era := shifted / 146097
  let dayOfEra := (shifted % 146097).toNat
  let yearOfEra := (dayOfEra - dayOfEra / 1460 + dayOfEra / 36524 - dayOfEra / 146096) / 365
  (era * 400 + yearOfEra, dayOfEra - (365 * yearOfEra + yearOfEra / 4 - yearOfEra / 100))

namespace Date

def ofDay (day : Int) : Date :=
  let (year, dayOfYear) := marchYear day
  let marchMonth := (5 * dayOfYear + 2) / 153
  let month := if marchMonth < 10 then marchMonth + 3 else marchMonth - 9
  ⟨if month ≤ 2 then year + 1 else year, month, dayOfYear - (153 * marchMonth + 2) / 5 + 1⟩

end Date

/-- The place of a day in its year, counted from one. -/
def dayOfYear (day : Int) : Nat := (day - daysBeforeYear (Date.ofDay day).year).toNat + 1

/-- The day of the week, counted from Monday as zero. -/
def weekday (day : Int) : Nat := ((day + 3) % 7).toNat

/-- The number of the week in its year, where weeks begin with the weekday `first` and the days
before the first such weekday are in week zero. -/
def weekFrom (first : Nat) (day : Int) : Nat :=
  (dayOfYear day + 6 - (weekday day + 7 - first) % 7) / 7

/-- The year and the number of the week by the rule that a week belongs to the year of its
Thursday. -/
def isoWeek (day : Int) : Int × Nat :=
  let thursday := day + 3 - weekday day
  ((Date.ofDay thursday).year, (dayOfYear thursday - 1) / 7 + 1)

/-- Names of the weekdays from Monday. -/
def weekdayNames : List String :=
  ["Monday", "Tuesday", "Wednesday", "Thursday", "Friday", "Saturday", "Sunday"]

def monthNames : List String :=
  ["January", "February", "March", "April", "May", "June", "July", "August", "September",
    "October", "November", "December"]

end Logbook.Time
