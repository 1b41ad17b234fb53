import Almanac.Time.BasicForm

/-!
Recurrence rules and their written form.

A rule says how often an event comes back (`FREQ` every `INTERVAL` units), on which weekdays
(`BYDAY`), and where the repetition ends (`UNTIL` or `COUNT`).  Writing leaves out the parts that
have their default value.
-/

namespace Almanac

/-- The unit in which a rule repeats. -/
inductive Frequency where
  | secondly | minutely | hourly | daily | weekly | monthly | yearly
  deriving DecidableEq, Repr

namespace Frequency

/-- The name of the unit in a rule. -/
def text : Frequency → String
  | .secondly => "SECONDLY" | .minutely => "MINUTELY" | .hourly => "HOURLY" | .daily => "DAILY"
  | .weekly => "WEEKLY" | .monthly => "MONTHLY" | .yearly => "YEARLY"

/-- All units, shortest first. -/
def all : List Frequency := [.secondly, .minutely, .hourly, .daily, .weekly, .monthly, .yearly]

/-- Reads the name of a unit in either case. -/
def ofText? (word : String) : Option Frequency := Text.lookUp? (all.map fun f => (f.text, f)) word

end Frequency

/-- The weekdays on which a rule falls. -/
inductive ByDay where
  /-- Weekdays in the order in which they were declared. -/
  | plain (days : List Weekday)
  /-- The `n`-th weekday of a month, counted from the end if `n` is negative, and the plain weekdays
  declared after it. -/
  | ordinal (n : Int8) (day : Weekday) (rest : List Weekday)
  deriving DecidableEq, Repr

namespace ByDay

/-- The entries as written. -/
def entries : ByDay → List (List Char)
  | .plain days => days.map fun d => d.code.toList
  | .ordinal n day rest =>
    (Text.signedDigits n.toInt ++ day.code.toList) :: rest.map fun d => d.code.toList

/-- The entries with commas between them. -/
def chars (b : ByDay) : List Char := (b.entries.intersperse [',']).flatten

end ByDay

/-- A recurrence rule. -/
structure Rule where
  /-- The identifier of the event that repeats; empty for a rule on its own. -/
  eventId : String
  /-- The unit. -/
  frequency : Frequency
  /-- The weekdays, if the rule names any. -/
  byDay : Option ByDay
  /-- The month, if the rule names one. -/
  byMonth : Option UInt32
  /-- The moment before which occurrences lie, if the rule names one. -/
  ending : Option Instant
  /-- How many units lie between occurrences; zero counts as one. -/
  interval : UInt32
  /-- The greatest number of occurrences, if the rule names one. -/
  count : Option UInt32
  /-- The first day of the week. -/
  weekStart : Weekday
  deriving DecidableEq, Repr

namespace Rule

/-- The rule that an empty text stands for. -/
def default : Rule := ⟨"", .yearly, none, none, none, 1, none, .monday⟩

instance : Inhabited Rule := ⟨default⟩

/-- One part of a written rule. -/
def part (key : String) (value : List Char) : List Char := ';' :: key.toList ++ '=' :: value

/-- A part that may be absent. -/
def part? (key : String) (value : Option (List Char)) : List Char :=
  match value with
  | some value => part key value
  | none => []

/-- The decimal digits of a word. -/
def wordDigits (n : UInt32) : List Char := Text.digits n.toNat

/-- The written form of a rule. -/
def chars (r : Rule) : List Char :=
  "FREQ=".toList ++ r.frequency.text.toList
    ++ part? "UNTIL" (r.ending.map Instant.basicText)
    ++ part? "BYMONTH" (r.byMonth.map wordDigits)
    ++ part? "BYDAY" (r.byDay.map ByDay.chars)
    ++ part? "WKST" (if r.weekStart = .monday then none else some r.weekStart.code.toList)
    ++ part? "INTERVAL" (if 1 < r.interval then some (wordDigits r.interval) else none)
    ++ part? "COUNT" (r.count.map wordDigits)

/-- The written form of a rule. -/
def text (r : Rule) : String := String.ofList r.chars

end Rule

end Almanac
