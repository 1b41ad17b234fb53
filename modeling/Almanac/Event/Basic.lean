import Almanac.Event.Alarm
import Almanac.Event.Attendee
import Almanac.Recurrence.Expand
import Almanac.Recurrence.Parse
import Almanac.Text.Link

/-!
Events and what can be asked of one.  An event ends at its `DTEND`, or its `DURATION` after its
beginning.  It repeats under its `RRULE`, if that can be read.
-/

namespace Almanac

/-- An event. -/
structure Event where
  /-- Its properties. -/
  properties : List Property
  /-- The components in it. -/
  components : List Component
  deriving DecidableEq

namespace Event

/-- The event that a component is, if it is one. -/
def ofComponent? (c : Component) : Option Event :=
  if c.is .event then some ⟨c.properties, c.components⟩ else none

/-- The event as a component. -/
def toComponent (e : Event) : Component := ⟨.known .event, e.properties, e.components⟩

/-- The value of its first property of a name. -/
def text? (e : Event) (name : String) : Option String := Store.text? e.properties name

/-- Its identifier. -/
def uid? (e : Event) : Option String := e.text? "UID"

/-- Its title. -/
def summary? (e : Event) : Option String := e.text? "SUMMARY"

/-- Its description. -/
def description? (e : Event) : Option String := e.text? "DESCRIPTION"

/-- Its place. -/
def location? (e : Event) : Option String := e.text? "LOCATION"

/-- Its address on the web. -/
def url? (e : Event) : Option String := e.text? "URL"

/-- Its status, as written. -/
def status? (e : Event) : Option String := e.text? "STATUS"

/-- The address of its organizer. -/
def organizer? (e : Event) : Option String := (e.text? "ORGANIZER").map stripMailto

/-- When it was last written. -/
def stampedAt (e : Event) : Except Failure Instant := Store.time e.properties "DTSTAMP"

/-- When it begins. -/
def startAt (e : Event) : Except Failure Instant := Store.time e.properties "DTSTART"

/-- When it ends.  A duration that cannot be read is reported before a beginning that cannot. -/
def endAt (e : Event) : Except Failure Instant :=
  if (Store.get? e.properties "DTEND").isSome then Store.time e.properties "DTEND"
  else match e.text? "DURATION" with
    | none => .error (.propertyNotFound "DTEND")
    | some duration => do
      let length ← (Delta.parse duration 0).mapError .parse
      let start ← e.startAt
      match start.add? length with
      | some t => return t
      | none => throw (.invalidDateTime "DURATION" duration)

/-- The date on which it begins. -/
def startDate (e : Event) : Except Failure Date := e.startAt.map Instant.date

/-- How long it lasts; no time at all if its beginning or its end cannot be read. -/
def duration (e : Event) : Delta :=
  match e.startAt, e.endAt with
  | .ok start, .ok finish => finish.since start
  | _, _ => .zero

/-- The people at it. -/
def attendees (e : Event) : List Attendee := e.properties.filterMap Attendee.ofProperty?

/-- The addresses of the people at it. -/
def emails (e : Event) : List String := e.attendees.map Attendee.email

/-- Its alarms. -/
def alarms (e : Event) : List Alarm := e.components.filterMap Alarm.ofComponent?

/-- Whether it has been called off. -/
def isCancelled (e : Event) : Bool := (e.status?.map (Text.sameName "CANCELLED")).getD false

/-- The first conference link in its description. -/
def conference? (e : Event) : Option String := e.description?.bind Link.conference?

/-- The rule under which it repeats, marked with its identifier. -/
def rule? (e : Event) : Option Rule :=
  (e.text? "RRULE").bind fun written =>
    match Rule.parse written 0 with
    | .ok rule => some { rule with eventId := e.uid?.getD "" }
    | .error _ => none

/-- Its occurrences; none if it does not repeat or its times cannot be read. -/
def slots (e : Event) (asked : Option Instant) (now : Instant) (horizon : Delta) : List Slot :=
  match e.rule?, e.startAt, e.endAt with
  | some rule, .ok start, .ok finish => rule.expand ⟨start, finish⟩ asked now horizon
  | _, _, _ => []

end Event

end Almanac
