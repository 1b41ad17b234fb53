import Almanac.Line.Content

/-!
Types of property values.  A `VALUE` parameter names the type; without one the name of the property
decides.  Only TEXT values are escaped on the line, so the type decides how a value is read and
written.
-/

namespace Almanac

/-- The type of a property value. -/
inductive ValueType where
  | text | dateTime | date | duration | period | recur | uri | calAddress | integer | float
  | boolean | binary | utcOffset | unknown
  deriving DecidableEq, Repr

namespace ValueType

/-- The types by the name that a `VALUE` parameter gives them. -/
def byParam : List (String × ValueType) :=
  [("TEXT", .text), ("DATE-TIME", .dateTime), ("DATE", .date), ("DURATION", .duration),
   ("PERIOD", .period), ("RECUR", .recur), ("URI", .uri), ("CAL-ADDRESS", .calAddress),
   ("INTEGER", .integer), ("FLOAT", .float), ("BOOLEAN", .boolean), ("BINARY", .binary),
   ("UTC-OFFSET", .utcOffset)]

/-- The properties of each type, for those properties that have one of their own. -/
def defaults : List (ValueType × List String) :=
  [(.text, ["CALSCALE", "METHOD", "PRODID", "VERSION", "CLASS", "COMMENT", "DESCRIPTION",
      "LOCATION", "SUMMARY", "STATUS", "TRANSP", "TZID", "TZNAME", "UID", "CONTACT",
      "RELATED-TO", "ACTION", "NAME", "COLOR", "X-WR-CALNAME", "X-WR-CALDESC", "X-WR-TIMEZONE"]),
   (.dateTime, ["DTSTART", "DTEND", "DTSTAMP", "CREATED", "LAST-MODIFIED", "COMPLETED", "DUE",
      "RECURRENCE-ID", "EXDATE", "RDATE"]),
   (.duration, ["DURATION", "TRIGGER", "REFRESH-INTERVAL"]),
   (.period, ["FREEBUSY"]),
   (.recur, ["RRULE", "EXRULE"]),
   (.uri, ["URL", "TZURL", "SOURCE", "ATTACH"]),
   (.calAddress, ["ATTENDEE", "ORGANIZER"]),
   (.integer, ["PERCENT-COMPLETE", "PRIORITY", "REPEAT", "SEQUENCE"]),
   (.float, ["GEO"]),
   (.utcOffset, ["TZOFFSETFROM", "TZOFFSETTO"])]

/-- The types by property name. -/
def byProperty : List (String × ValueType) :=
  defaults.flatMap fun (type, names) => names.map fun name => (name, type)

/-- The type that a `VALUE` parameter names. -/
def ofParam (word : String) : ValueType := (Text.lookUp? byParam word).getD .unknown

/-- The type of a property that does not say. -/
def ofProperty (name : String) : ValueType := (Text.lookUp? byProperty name).getD .unknown

/-- The type of the values of a property with these parameters: the first value of the first `VALUE`
parameter decides, or else the name. -/
def resolve (name : String) (params : List Param) : ValueType :=
  match (params.find? (·.isNamed "VALUE")).bind Param.value? with
  | some word => ofParam word
  | none => ofProperty name

/-- Whether values of the type are escaped on the line. -/
def isText (type : ValueType) : Bool := type == .text

end ValueType

end Almanac
