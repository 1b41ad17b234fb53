import Almanac.Text.Letter

/-!
The kinds of components and the tokens that open and close them.  A token that names no known kind
is kept as it was written; so is the token of a calendar where a component is expected.
-/

namespace Almanac

/-- The components that have a token of their own inside a calendar. -/
inductive Role where
  | event | todo | journal | freeBusy | timezone | alarm | standard | daylight
  deriving DecidableEq, Repr

namespace Role

/-- The token of a component. -/
def token : Role → String
  | .event => "VEVENT" | .todo => "VTODO" | .journal => "VJOURNAL" | .freeBusy => "VFREEBUSY"
  | .timezone => "VTIMEZONE" | .alarm => "VALARM" | .standard => "STANDARD"
  | .daylight => "DAYLIGHT"

/-- All of them. -/
def all : List Role :=
  [.event, .todo, .journal, .freeBusy, .timezone, .alarm, .standard, .daylight]

/-- The component that a token names, in either case. -/
def ofToken? (word : String) : Option Role := Text.lookUp? (all.map fun r => (r.token, r)) word

end Role

/-- What a token can name. -/
inductive Kind where
  /-- The calendar itself. -/
  | calendar
  /-- A component of a calendar. -/
  | inner (role : Role)
  /-- Anything else. -/
  | unknown
  deriving DecidableEq, Repr

/-- The token of the calendar itself. -/
def calendarToken : String := "VCALENDAR"

/-- Whether a word is the token of the calendar, in either case. -/
def isCalendarToken (word : String) : Bool := Text.sameName word calendarToken

namespace Kind

/-- The name of a kind. -/
def text : Kind → String
  | .calendar => calendarToken
  | .inner role => role.token
  | .unknown => "X-UNKNOWN"

/-- The kind that a token names, in either case. -/
def ofToken (word : String) : Kind :=
  if isCalendarToken word then .calendar
  else match Role.ofToken? word with
    | some role => .inner role
    | none => .unknown

end Kind

/-- The token of a component inside a calendar. -/
inductive Token where
  /-- A known one. -/
  | known (role : Role)
  /-- Any other, as written. -/
  | other (word : String)
  deriving DecidableEq, Repr

namespace Token

/-- The token that a word stands for. -/
def ofText (word : String) : Token :=
  match Role.ofToken? word with
  | some role => .known role
  | none => .other word

/-- The word that is written for a token. -/
def text : Token → String
  | .known role => role.token
  | .other word => word

/-- The kind of a component with this token. -/
def kind : Token → Kind
  | .known role => .inner role
  | .other _ => .unknown

end Token

end Almanac
