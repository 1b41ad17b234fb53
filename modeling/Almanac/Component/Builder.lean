import Almanac.Component.Basic
import Almanac.Line.Unfold

/-!
Reading a calendar line by line.

    outside ──BEGIN:VCALENDAR──▶ inside, nothing open ──END:VCALENDAR──▶ closed
                                   │ ▲
                             BEGIN │ │ END of the same token
                                   ▼ │
                                 inside, components open

Inside the calendar a stack holds the components that are open, the innermost first.  A property
goes to the innermost one, and a component that closes becomes the last one in the component around
it.  At most thirty-two components may be open.  The first line that fits nowhere ends the reading,
and whatever follows the end of the calendar is not looked at.
-/

namespace Almanac

/-- What a content line is for. -/
inductive Clause where
  /-- It opens a component with the given token. -/
  | opening (token : String)
  /-- It closes the component with the given token. -/
  | closing (token : String)
  /-- It is a property. -/
  | property (line : ContentLine)
  deriving DecidableEq, Repr

namespace Clause

/-- What a content line is for; blanks around a token do not count. -/
def ofLine (line : ContentLine) : Clause :=
  if Text.sameName line.name "BEGIN" then .opening (Text.trimmed line.rawValue)
  else if Text.sameName line.name "END" then .closing (Text.trimmed line.rawValue)
  else .property line

/-- The clause in words, for a complaint. -/
def found : Clause → String
  | .opening token => "found BEGIN:" ++ token
  | .closing token => "found END:" ++ token
  | .property line => "found property " ++ line.name

end Clause

/-- A component that has been opened and not yet closed. -/
structure OpenComponent where
  /-- The token as it was written on the opening line. -/
  token : String
  /-- The properties so far. -/
  properties : List Property
  /-- The components so far. -/
  components : List Component
  deriving DecidableEq

namespace OpenComponent

/-- The component as it is when it closes. -/
def close (c : OpenComponent) : Component := ⟨.ofText c.token, c.properties, c.components⟩

/-- With one more component at the end. -/
def push (c : OpenComponent) (child : Component) : OpenComponent :=
  { c with components := c.components ++ [child] }

end OpenComponent

/-- How far the reading of a calendar has come. -/
inductive Builder where
  /-- The calendar has not been opened. -/
  | outside
  /-- The calendar is open, and so are some components, the innermost first. -/
  | inside (calendar : Calendar) (stack : List OpenComponent)
  /-- The calendar has been closed. -/
  | closed (calendar : Calendar)
  deriving DecidableEq

namespace Builder

/-- The greatest number of components that may be open at once. -/
def maxDepth : Nat := 32

/-- A complaint about tokens that do not match. -/
def mismatch (expected got : String) : ParseError.Kind × Option String :=
  (.mismatchedEnd, some ("expected END:" ++ expected ++ ", got END:" ++ got))

/-- Takes one more clause, or says why it cannot stand here. -/
def step : Builder → Clause → Except (ParseError.Kind × Option String) Builder
  | .outside, clause =>
    match clause with
    | .opening token =>
      if isCalendarToken token then .ok (.inside ⟨[], []⟩ [])
      else .error (.missingCalendarBegin, some clause.found)
    | _ => .error (.missingCalendarBegin, some clause.found)
  | .inside calendar stack, .opening token =>
    if isCalendarToken token then .error (.nestedCalendar, none)
    else if maxDepth ≤ stack.length then
      .error (.invalidNesting, some s!"{token} exceeds depth {maxDepth}")
    else .ok (.inside calendar (⟨token, [], []⟩ :: stack))
  | .inside calendar [], .closing token =>
    if isCalendarToken token then .ok (.closed calendar)
    else .error (mismatch calendarToken token)
  | .inside calendar (top :: stack), .closing token =>
    if Text.sameName token top.token then
      match stack with
      | [] => .ok (.inside ⟨calendar.properties, calendar.components ++ [top.close]⟩ [])
      | next :: stack => .ok (.inside calendar (next.push top.close :: stack))
    else .error (mismatch top.token token)
  | .inside calendar [], .property line =>
    .ok (.inside ⟨calendar.properties ++ [.ofLine line], calendar.components⟩ [])
  | .inside calendar (top :: stack), .property line =>
    .ok (.inside calendar
      ({ top with properties := top.properties ++ [.ofLine line] } :: stack))
  | .closed _, _ => .error (.invalidState, some ("line after END:" ++ calendarToken))

/-- The token whose closing line is missing. -/
def missing : Builder → String
  | .inside _ (top :: _) => top.token
  | _ => calendarToken

/-- Takes a line of text. -/
def stepLine (b : Builder) (number : Nat) (text : String) : Except ParseError Builder := do
  let line ← ContentLine.parse text number
  (b.step (.ofLine line)).mapError fun (kind, context) => ⟨kind, number, context⟩

/-- Takes lines until the calendar is closed.  `last` is the number of the line before them. -/
def run : Builder → Nat → List RawLine → Except Failure Calendar
  | .closed calendar, _, _ => .ok calendar
  | b, last, [] => .error (.parse ⟨.unexpectedEof, last, some ("missing END:" ++ b.missing)⟩)
  | b, _, line :: rest =>
    match line.text with
    | .error error => .error (.read error)
    | .ok text =>
      match b.stepLine line.number text with
      | .error error => .error (.parse error)
      | .ok b => run b line.number rest

end Builder

namespace Calendar

/-- Reads a calendar from bytes. -/
def ofBytes (bytes : List UInt8) : Except Failure Calendar :=
  Builder.outside.run 0 (RawLine.ofBytes bytes)

/-- Reads a calendar from text. -/
def ofText (text : String) : Except Failure Calendar := ofBytes (Utf8.encode text.toList)

end Calendar

end Almanac
