import Almanac.Time.Instant

/-!
Steps on the calendar: days, weeks and months later, the next day that is a given weekday, and the
`n`-th such weekday of the month from its start or from its end.  Each keeps the time of day and
gives nothing when the day it looks for is not on the time line, or is not in the month.
-/

namespace Almanac.Instant

/-- A number of days later, or earlier for a negative number. -/
def addDays? (t : Instant) (n : Int) : Option Instant := (Delta.ofDays? n).bind t.add?

/-- A number of weeks later. -/
def addWeeks? (t : Instant) (n : Int) : Option Instant := t.addDays? (7 * n)

/-- A number of months later, on the same day of the month or the last one of a shorter month. -/
def addMonths? (t : Instant) (n : Int) : Option Instant :=
  t.onDay? (t.date.addMonths n).dayNumber

/-- The next day that is the given weekday: today counts only if `inclusive`. -/
def nextWeekday? (t : Instant) (w : Weekday) (inclusive : Bool) : Option Instant :=
  let ahead := t.weekday.ahead w
  t.addDays? (if ahead = 0 ∧ inclusive = false then 7 else ahead)

/-- The number of the first day of the month. -/
def monthStart (t : Instant) : Int := { t.date with day := 1 : Date }.dayNumber

/-- The `n`-th given weekday of the month, counted from the start. -/
def nthWeekday? (t : Instant) (w : Weekday) (n : Nat) : Option Instant :=
  let offset := (Date.weekdayOf t.monthStart).ahead w + 7 * (n - 1)
  if n = 0 ∨ Date.monthLength t.date.year t.date.month ≤ offset then none
  else t.onDay? (t.monthStart + offset)

/-- The `n`-th given weekday counted back from the end of the month.  The day found is accepted when
its month has the same name, so a count of about a year or more can leave the year. -/
def nthLastWeekday? (t : Instant) (w : Weekday) (n : Nat) : Option Instant :=
  let next := t.monthStart + Date.monthLength t.date.year t.date.month
  let back := w.ahead (Date.weekdayOf (next - 1)) + 7 * (n - 1)
  let found := next - 1 - back
  if n = 0 ∨ lastSecond < 86400 * next ∨ (Date.ofDayNumber found).month ≠ t.date.month then none
  else t.onDay? found

/-- Whether the moment marks a time that is not set. -/
def isUnset (t : Instant) : Bool := t == epoch

end Almanac.Instant
