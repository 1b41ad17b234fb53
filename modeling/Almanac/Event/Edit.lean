import Almanac.Decimal.Shortest
import Almanac.Event.Basic
import Almanac.Text.Base64

/-!
What can be set or added in an event.  Each edit comes down to one change of one property: the value
is written in the form that its type asks for, moments in universal time.
-/

namespace Almanac.Event

/-- How firmly an event is planned. -/
inductive Status where
  | tentative | confirmed | cancelled
  deriving DecidableEq, Repr

namespace Status

/-- The name of a status. -/
def text : Status → String
  | .tentative => "TENTATIVE" | .confirmed => "CONFIRMED" | .cancelled => "CANCELLED"

/-- Reads the name of a status in either case. -/
def ofText? (word : String) : Option Status :=
  Text.lookUp? ([.tentative, .confirmed, .cancelled].map fun s => (text s, s)) word

end Status

/-- Who may see an event. -/
inductive Access where
  | everyone | owner | confidential
  deriving DecidableEq, Repr

namespace Access

/-- The name of an access class. -/
def text : Access → String
  | .everyone => "PUBLIC" | .owner => "PRIVATE" | .confidential => "CONFIDENTIAL"

/-- Reads the name of an access class in either case. -/
def ofText? (word : String) : Option Access :=
  Text.lookUp? ([.everyone, .owner, .confidential].map fun a => (text a, a)) word

end Access

/-- Whether an event takes up time. -/
inductive Presence where
  | busy | free
  deriving DecidableEq, Repr

namespace Presence

/-- The name of a presence. -/
def text : Presence → String
  | .busy => "OPAQUE" | .free => "TRANSPARENT"

/-- Reads the name of a presence in either case. -/
def ofText? (word : String) : Option Presence :=
  Text.lookUp? ([.busy, .free].map fun p => (text p, p)) word

end Presence

/-- One thing that can be set or added. -/
inductive Edit where
  | uid (id : String)
  | stampedAt (t : Instant)
  | createdAt (t : Instant)
  | modifiedAt (t : Instant)
  | sequence (n : UInt32)
  | summary (words : String)
  | description (words : String)
  | location (words : String)
  | url (address : String)
  | status (s : Status)
  | access (a : Access)
  | priority (n : UInt8)
  | presence (p : Presence)
  | color (name : String)
  | position (latitude longitude : Binary64)
  | organizer (address : String) (name : Option String)
  | startAt (t : Instant)
  | endAt (t : Instant)
  | startDay (t : Instant)
  | endDay (t : Instant)
  | duration (d : Delta)
  | rule (r : Rule)
  | attendee (address : String) (params : List Param)
  | attachment (address : String) (media : Option String)
  | attachedBytes (bytes : List UInt8) (media : String)
  | exceptAt (t : Instant)
  | alsoAt (t : Instant)

namespace Edit

/-- Sets a property to a moment. -/
def moment (name : String) (t : Instant) : Store.Change := .plain name (String.ofList t.basicText)

/-- Sets a property to a date. -/
def dayOf (name : String) (t : Instant) : Store.Change :=
  .set ⟨name, [.valueType "DATE"], String.ofList t.basicDateText⟩

/-- A number as a text. -/
def number (n : Nat) : String := String.ofList (Text.digits n)

/-- The change that an edit makes. -/
def change : Edit → Store.Change
  | .uid id => .plain "UID" id
  | .stampedAt t => moment "DTSTAMP" t
  | .createdAt t => moment "CREATED" t
  | .modifiedAt t => moment "LAST-MODIFIED" t
  | .sequence n => .plain "SEQUENCE" (number n.toNat)
  | .summary words => .plain "SUMMARY" words
  | .description words => .plain "DESCRIPTION" words
  | .location words => .plain "LOCATION" words
  | .url address => .plain "URL" address
  | .status s => .plain "STATUS" s.text
  | .access a => .plain "CLASS" a.text
  | .priority n => .plain "PRIORITY" (number n.toNat)
  | .presence p => .plain "TRANSP" p.text
  | .color name => .plain "COLOR" name
  | .position latitude longitude => .plain "GEO" (latitude.text ++ ";" ++ longitude.text)
  | .organizer address name => .set ⟨"ORGANIZER", (name.map Param.cn).toList, mailto address⟩
  | .startAt t => moment "DTSTART" t
  | .endAt t => moment "DTEND" t
  | .startDay t => dayOf "DTSTART" t
  | .endDay t => dayOf "DTEND" t
  | .duration d => .plain "DURATION" (String.ofList d.text)
  | .rule r => .plain "RRULE" r.text
  | .attendee address params => .add ⟨"ATTENDEE", params, mailto address⟩
  | .attachment address media => .add ⟨"ATTACH", (media.map Param.fmttype).toList, address⟩
  | .attachedBytes bytes media =>
    .add ⟨"ATTACH", [.fmttype media, .encoding "base64", .valueType "binary"],
      String.ofList (Base64.encode bytes)⟩
  | .exceptAt t => .add (.plain "EXDATE" (String.ofList t.basicText))
  | .alsoAt t => .add (.plain "RDATE" (String.ofList t.basicText))

end Edit

/-- The event after an edit. -/
def edit (e : Event) (edit : Edit) : Event :=
  { e with properties := Store.apply e.properties edit.change }

/-- A new event with an identifier. -/
def new (uid : String) : Event := (⟨[], []⟩ : Event).edit (.uid uid)

end Almanac.Event
