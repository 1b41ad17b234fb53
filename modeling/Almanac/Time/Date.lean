import Almanac.Time.Weekday

/-!
Dates of the Gregorian calendar, extended to all years, and their day numbers.  Day 0 is 1 January
1970.

The days before a year are counted with one leap day for every fourth year, less every hundredth,
plus every four-hundredth.  Inside a year, month `m` begins `(367 * m - 362) / 12` days after New
Year if February is given thirty days; from March on the two or one days too many are taken off.
`ofDayNumber` undoes the sum cycle by cycle: four hundred years, a century, four years, a year, a
month.
-/

namespace Almanac

/-- A year, a month from one to twelve and a day of the month from one. -/
structure Date where
  /-- Astronomical year: the year before year 1 is year 0. -/
  year : Int
  /-- January is one. -/
  month : Nat
  /-- The first day of a month is one. -/
  day : Nat
  deriving DecidableEq, Repr

namespace Date

/-- Whether a year has a 29 February. -/
def isLeapYear (year : Int) : Bool := year % 4 == 0 && (year % 100 != 0 || year % 400 == 0)

/-- Number of days of a month. -/
def monthLength (year : Int) (month : Nat) : Nat :=
  match month with
  | 2 => if isLeapYear year then 29 else 28
  | 4 | 6 | 9 | 11 => 30
  | _ => 31

/-- A date that is in the calendar. -/
def Valid (d : Date) : Prop :=
  1 ≤ d.month ∧ d.month ≤ 12 ∧ 1 ≤ d.day ∧ d.day ≤ monthLength d.year d.month

instance (d : Date) : Decidable d.Valid := inferInstanceAs (Decidable (_ ∧ _))

/-- Days from 1 January of year 1 to 1 January of a year. -/
def daysBeforeYear (year : Int) : Int :=
  365 * (year - 1) + (year - 1) / 4 - (year - 1) / 100 + (year - 1) / 400

/-- How many days February lacks to thirty. -/
def februaryGap (year : Int) : Nat := if isLeapYear year then 1 else 2

/-- Days from New Year to the first of a month. -/
def daysBeforeMonth (year : Int) (month : Nat) : Nat :=
  (367 * month - 362) / 12 - if month ≤ 2 then 0 else februaryGap year

/-- Days from 1 January of year 1 to 1 January 1970. -/
def epochOffset : Int := 719162

/-- Days from 1 January 1970 to a date. -/
def dayNumber (d : Date) : Int :=
  daysBeforeYear d.year + daysBeforeMonth d.year d.month + d.day - 1 - epochOffset

/-- The date of the day `yearDay` days after New Year. -/
def ofYearDay (year : Int) (yearDay : Nat) : Date :=
  let late := if yearDay < daysBeforeMonth year 3 then 0 else februaryGap year
  let month := (12 * (yearDay + late) + 373) / 367
  ⟨year, month, yearDay - daysBeforeMonth year month + 1⟩

/-- The date with a given day number. -/
def ofDayNumber (n : Int) : Date :=
  let days := n + epochOffset
  let inCycle := (days % 146097).toNat
  let century := min (inCycle / 36524) 3
  let inCentury := inCycle - 36524 * century
  let inFour := inCentury % 1461
  let single := min (inFour / 365) 3
  let year := 400 * (days / 146097) + 100 * century + 4 * (inCentury / 1461 : Nat) + single + 1
  ofYearDay year (inFour - 365 * single)

/-- The weekday of a day number: day 0 was a Thursday. -/
def weekdayOf (n : Int) : Weekday := .ofIndex ((n + 3) % 7).toNat

/-- The weekday of a date. -/
def weekday (d : Date) : Weekday := weekdayOf d.dayNumber

/-- The same day a number of months later, or the last day of that month if it is shorter. -/
def addMonths (d : Date) (n : Int) : Date :=
  let months := 12 * d.year + (d.month - 1 : Nat) + n
  let year := months / 12
  let month := (months % 12).toNat + 1
  ⟨year, month, min d.day (monthLength year month)⟩

end Date

end Almanac
