import Almanac.Text.Utf8

/-!
What can go wrong.  A `ParseError` is a complaint about one line of a calendar text or about one
value; a `Failure` is what an operation on a whole calendar answers instead of a result.  Each has
one function for its wording.
-/

namespace Almanac

/-- The reasons for which a line or a value is refused. -/
inductive ParseError.Kind where
  /-- The first line does not open the calendar. -/
  | missingCalendarBegin
  /-- A closing line does not match what is open. -/
  | mismatchedEnd
  /-- A calendar is opened inside a calendar. -/
  | nestedCalendar
  /-- Too many components are open at once. -/
  | invalidNesting
  /-- A content line has no colon outside quotes. -/
  | missingColon
  /-- A content line has nothing before its parameters or its value. -/
  | missingPropertyName
  /-- The lines end before the calendar is closed. -/
  | unexpectedEof
  /-- A line follows the end of the calendar. -/
  | invalidState
  /-- A value is not a date or a moment. -/
  | invalidDateTime
  /-- A value is not a length of time. -/
  | invalidDuration
  /-- A value is not a recurrence rule. -/
  | invalidRule
  /-- A value is not a frequency. -/
  | invalidFrequency
  /-- A value is not a weekday. -/
  | invalidWeekday
  deriving DecidableEq, Repr

namespace ParseError.Kind

/-- The reason in words. -/
def text : Kind → String
  | .missingCalendarBegin => "missing BEGIN:VCALENDAR"
  | .mismatchedEnd => "mismatched BEGIN/END"
  | .nestedCalendar => "nested VCALENDAR"
  | .invalidNesting => "invalid component nesting"
  | .missingColon => "missing colon separator"
  | .missingPropertyName => "missing property name"
  | .unexpectedEof => "ran out of lines"
  | .invalidState => "invalid parser state"
  | .invalidDateTime => "invalid date-time format"
  | .invalidDuration => "invalid duration format"
  | .invalidRule => "invalid recurrence rule"
  | .invalidFrequency => "invalid frequency"
  | .invalidWeekday => "invalid weekday"

/-- Whether the structure of the text is at fault, and not a value in it. -/
def isMalformed : Kind → Bool
  | .missingCalendarBegin | .mismatchedEnd | .nestedCalendar | .invalidNesting | .missingColon
  | .missingPropertyName | .unexpectedEof => true
  | _ => false

/-- Whether a line came where none can be taken. -/
def isStateError (k : Kind) : Bool := k == .invalidState

end ParseError.Kind

/-- A complaint about a line or a value. -/
structure ParseError where
  /-- What is wrong. -/
  kind : ParseError.Kind
  /-- The physical line on which the offending line starts, from one; zero if there is none. -/
  line : Nat
  /-- The offending text, or what was expected. -/
  context : Option String
  deriving DecidableEq, Repr

/-- The sentence that reports a complaint. -/
def ParseError.message (e : ParseError) : String :=
  s!"{e.kind.text} at line {e.line}" ++ match e.context with
    | some context => ": " ++ context
    | none => ""

/-- A complaint that cites the offending text in single quotes. -/
def ParseError.citing (kind : ParseError.Kind) (line : Nat) (text : String) : ParseError :=
  ⟨kind, line, some ("'" ++ text ++ "'")⟩

/-- Why bytes could not be had or could not be read as text. -/
inductive ReadError where
  /-- The bytes of a line are not UTF-8. -/
  | notUtf8 (line : Nat) (fault : Utf8.Fault)
  /-- The system refused to hand over a file. -/
  | system (reason : String)
  deriving DecidableEq, Repr

/-- The sentence that reports unreadable bytes. -/
def ReadError.message : ReadError → String
  | .notUtf8 line fault => s!"line {line} is not valid UTF-8: {fault.message}"
  | .system reason => reason

/-- What an operation on a calendar answers instead of a result. -/
inductive Failure where
  /-- A line or a value was refused. -/
  | parse (error : ParseError)
  /-- The bytes could not be read. -/
  | read (error : ReadError)
  /-- A component has no property of this name. -/
  | propertyNotFound (name : String)
  /-- A property holds something else than a moment. -/
  | invalidDateTime (property value : String)
  /-- The calendar has no event to ask. -/
  | noEvents
  deriving DecidableEq, Repr

namespace Failure

/-- The sentence that reports a failure. -/
def message : Failure → String
  | .parse error => "Parse error: " ++ error.message
  | .read error => "I/O error: " ++ error.message
  | .propertyNotFound name => "Property not found: " ++ name
  | .invalidDateTime property value => s!"Invalid date-time in {property}: {value}"
  | .noEvents => "Calendar has no events"

/-- Whether the structure of a text is at fault. -/
def isMalformed : Failure → Bool
  | .parse error => error.kind.isMalformed
  | _ => false

end Failure

end Almanac
