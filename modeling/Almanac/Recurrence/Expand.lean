import Almanac.Recurrence.Rule
import Almanac.Time.Shift

/-!
The occurrences of a repeating event.

Three shapes of rules repeat: daily, weekly on plain weekdays, and monthly on the `n`-th weekday.
Each is a walk over places.  At a place the walk stops, passes on, or visits a span of time and
says where it goes from there; `collect` gathers the spans visited, as many as `COUNT` allows.  The
beginning and the end of an event move together, and a walk ends where one of them would reach the
bound or leave the time line.

    daily    span ──visit──▶ span + interval days
    weekly   span, d₁ d₂ …  ──visit next d₁──▶  a day later, d₂ …
             span, nothing  ──pass──▶  skipped weeks, d₁ d₂ …
    monthly  month k  ──visit or pass──▶ month k + interval
-/

namespace Almanac

/-- The time from one moment to another. -/
structure Span where
  /-- Its beginning. -/
  start : Instant
  /-- Its end, which may lie before the beginning. -/
  finish : Instant
  deriving DecidableEq, Repr

namespace Span

/-- Whether its beginning or its end has come to the bound. -/
def reached (s : Span) (bound : Instant) : Bool := bound ≤ s.start || bound ≤ s.finish

/-- Both ends a number of days later. -/
def addDays? (s : Span) (n : Int) : Option Span := do
  let start ← s.start.addDays? n
  let finish ← s.finish.addDays? n
  return ⟨start, finish⟩

/-- The span that begins at another moment, its end moved by as much. -/
def moveTo? (s : Span) (start : Instant) : Option Span :=
  (s.finish.add? (start.since s.start)).map fun finish => ⟨start, finish⟩

end Span

/-- What a walk does at a place. -/
inductive Step (Place : Type) where
  /-- It is over. -/
  | stop
  /-- It goes on without a visit. -/
  | pass (next : Place)
  /-- It visits a span, and goes on if there is a next place. -/
  | visit (span : Span) (next : Option Place)

/-- The spans that a walk visits in a number of steps, as many as there is room for. -/
def collect (step : Place → Step Place) : Nat → Option Nat → Place → List Span
  | 0, _, _ => []
  | _ + 1, some 0, _ => []
  | fuel + 1, room, place =>
    match step place with
    | .stop => []
    | .pass next => collect step fuel room next
    | .visit span none => [span]
    | .visit span (some next) => span :: collect step fuel (room.map (· - 1)) next

/-- More steps than any walk takes: a walk moves at least a day forward in two steps, and the time
line has 191491530 days. -/
def walkLimit : Nat := 400000000

namespace Rule

/-- The number of units between occurrences. -/
def stride (r : Rule) : Nat := max r.interval.toNat 1

/-- The spans that there is room for. -/
def room (r : Rule) : Option Nat := r.count.map UInt32.toNat

/-! ### The three walks -/

/-- The place of a daily walk is the span it visits next. -/
def dailyStep (stride : Nat) (bound : Instant) (span : Span) : Step Span :=
  .visit span ((span.addDays? stride).filter fun next => !next.reached bound)

/-- The place of a weekly walk: a span from which the next weekday is searched, and the weekdays
that are left of the list. -/
structure WeeklyPlace where
  /-- Where the search begins. -/
  span : Span
  /-- The weekdays still to be visited in this round. -/
  days : List Weekday

/-- A weekly walk goes to each weekday in turn, from a day after the one before, and skips weeks
when the list is through. -/
def weeklyStep (all : List Weekday) (stride : Nat) (bound : Instant) (place : WeeklyPlace) :
    Step WeeklyPlace :=
  match place.days with
  | [] =>
    if stride = 1 then .pass ⟨place.span, all⟩
    else match place.span.addDays? (7 * (stride - 1 : Nat)) with
      | some span => .pass ⟨span, all⟩
      | none => .stop
  | day :: days =>
    match (place.span.start.nextWeekday? day true).bind place.span.moveTo? with
    | none => .stop
    | some span =>
      if span.reached bound then .stop
      else .visit span ((span.addDays? 1).map fun next => ⟨next, days⟩)

/-- The `n`-th weekday of the month of a moment, from the end for a negative `n`. -/
def occurrence? (n : Int8) (day : Weekday) (t : Instant) : Option Instant :=
  if n < 0 then t.nthLastWeekday? day n.toInt.natAbs else t.nthWeekday? day n.toInt.natAbs

/-- The place of a monthly walk: the number of months since the first one, and the beginning of the
event moved there. -/
structure MonthlyPlace where
  /-- Months since the first one. -/
  months : Nat
  /-- The beginning of the event so many months later. -/
  anchor : Instant

/-- The greatest number of months that a walk counts. -/
def maxMonths : Nat := 2147483647

/-- The count of months after a step.  It stays at the greatest number, which no moment is away from
another. -/
def monthsAfter (months stride : Nat) : Nat := min (months + min stride maxMonths) maxMonths

/-- A monthly walk visits the weekday of each month that has it. -/
def monthlyStep (n : Int8) (day : Weekday) (stride : Nat) (bound : Instant) (event : Span)
    (place : MonthlyPlace) : Step MonthlyPlace :=
  if bound ≤ place.anchor then .stop
  else
    let months := monthsAfter place.months stride
    let next := (event.start.addMonths? months).map fun anchor => ⟨months, anchor⟩
    match occurrence? n day place.anchor with
    | none =>
      match next with
      | some next => .pass next
      | none => .stop
    | some start =>
      match event.moveTo? start with
      | none => .stop
      | some span => if span.reached bound then .stop else .visit span next

/-- The spans of a rule for an event, up to a bound.  Other shapes of rules have none. -/
def spans (r : Rule) (event : Span) (bound : Instant) : List Span :=
  match r.frequency, r.byDay with
  | .daily, _ => collect (dailyStep r.stride bound) walkLimit r.room event
  | .weekly, some (.plain days) =>
    if days = [] then []
    else collect (weeklyStep days r.stride bound) walkLimit r.room ⟨event, days⟩
  | .monthly, some (.ordinal n day _) =>
    collect (monthlyStep n day r.stride bound event) walkLimit r.room ⟨0, event.start⟩
  | _, _ => []

/-- The bound of an expansion: the one asked for, else the end of the rule, else the horizon from
now, or the latest moment if the horizon is beyond it. -/
def bound (r : Rule) (asked : Option Instant) (now : Instant) (horizon : Delta) : Instant :=
  ((asked <|> r.ending) <|> now.add? horizon).getD .latest

end Rule

/-- One occurrence of an event. -/
structure Slot where
  /-- The identifier of the event. -/
  eventId : String
  /-- When it takes place. -/
  span : Span
  deriving DecidableEq, Repr

namespace Slot

/-- How long it lasts. -/
def duration (s : Slot) : Delta := s.span.finish.since s.span.start

/-- How long it lasts in whole seconds. -/
def seconds (s : Slot) : Int := s.duration.wholeSeconds

end Slot

/-- The occurrences of an event under a rule.  An event whose beginning is not set has none. -/
def Rule.expand (r : Rule) (event : Span) (asked : Option Instant) (now : Instant)
    (horizon : Delta) : List Slot :=
  if event.start.isUnset then []
  else (r.spans event (r.bound asked now horizon)).map fun span => ⟨r.eventId, span⟩

end Almanac
