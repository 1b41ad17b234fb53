import Almanac.Calendar.Timezone
import Almanac.Event.Edit

/-!
Calendars: what can be asked of one, and what can be set.  Questions about a single event are about
the first one.
-/

namespace Almanac

/-- The maker of a program, as far as its product identifier tells. -/
inductive Vendor where
  | microsoft | google | apple | caldav
  deriving DecidableEq, Repr

namespace Vendor

/-- The name of a maker. -/
def text : Vendor → String
  | .microsoft => "microsoft" | .google => "google" | .apple => "apple" | .caldav => "caldav"

/-- The maker that a product identifier mentions; the first of the list if there are several. -/
def ofProductId (id : String) : Vendor :=
  if Text.mentions id "microsoft" then .microsoft
  else if Text.mentions id "google" then .google
  else if Text.mentions id "icloud" then .apple
  else .caldav

end Vendor

namespace Calendar

/-! ### Views -/

/-- The value of its first property of a name. -/
def text? (c : Calendar) (name : String) : Option String := Store.text? c.properties name

/-- The version of the format. -/
def version? (c : Calendar) : Option String := c.text? "VERSION"

/-- The program that wrote it. -/
def productId? (c : Calendar) : Option String := c.text? "PRODID"

/-- What it is sent for. -/
def method? (c : Calendar) : Option String := c.text? "METHOD"

/-- Its name, under either of two properties. -/
def name? (c : Calendar) : Option String := (c.text? "NAME").or (c.text? "X-WR-CALNAME")

/-- The maker of the program that wrote it. -/
def vendor (c : Calendar) : Vendor := (c.productId?.map Vendor.ofProductId).getD .caldav

/-- Its events. -/
def events (c : Calendar) : List Event := c.components.filterMap Event.ofComponent?

/-- Its first time zone. -/
def timezone? (c : Calendar) : Option Timezone := c.components.findSome? Timezone.ofComponent?

/-- Its first event. -/
def firstEvent (c : Calendar) : Except Failure Event :=
  match c.events.head? with
  | some e => .ok e
  | none => .error .noEvents

/-- When its first event begins. -/
def eventStartAt (c : Calendar) : Except Failure Instant := c.firstEvent.bind Event.startAt

/-- When its first event ends. -/
def eventEndAt (c : Calendar) : Except Failure Instant := c.firstEvent.bind Event.endAt

/-- Where its first event takes place. -/
def eventLocation? (c : Calendar) : Option String := c.events.head?.bind Event.location?

/-! ### Edits -/

/-- One thing that can be set. -/
inductive Edit where
  | version (text : String)
  | productId (text : String)
  | method (text : String)
  | scale (text : String)
  | name (text : String)
  | displayName (text : String)
  | displayDescription (text : String)
  | displayTimezone (text : String)
  | description (text : String)
  | url (text : String)
  | color (text : String)
  | refreshInterval (d : Delta)
  deriving DecidableEq, Repr

/-- The change that an edit makes. -/
def Edit.change : Edit → Store.Change
  | .version text => .plain "VERSION" text
  | .productId text => .plain "PRODID" text
  | .method text => .plain "METHOD" text
  | .scale text => .plain "CALSCALE" text
  | .name text => .plain "NAME" text
  | .displayName text => .plain "X-WR-CALNAME" text
  | .displayDescription text => .plain "X-WR-CALDESC" text
  | .displayTimezone text => .plain "X-WR-TIMEZONE" text
  | .description text => .plain "DESCRIPTION" text
  | .url text => .plain "URL" text
  | .color text => .plain "COLOR" text
  | .refreshInterval d =>
    .set ⟨"REFRESH-INTERVAL", [.valueType "DURATION"], String.ofList d.text⟩

/-- The calendar after a change of its properties. -/
def change (c : Calendar) (change : Store.Change) : Calendar :=
  { c with properties := Store.apply c.properties change }

/-- The calendar after an edit. -/
def edit (c : Calendar) (edit : Edit) : Calendar := c.change edit.change

/-- The calendar after the same edit of each of its events. -/
def editEvents (c : Calendar) (edit : Event.Edit) : Calendar :=
  { c with components := c.components.map fun d => if d.is .event then d.change edit.change else d }

/-- With one more component at the end. -/
def push (c : Calendar) (child : Component) : Calendar :=
  { c with components := c.components ++ [child] }

/-- A new calendar of a program. -/
def newFor (productId : String) : Calendar :=
  ((⟨[], []⟩ : Calendar).edit (.version "2.0")).edit (.productId productId)

/-- The product identifier of this program. -/
def ownProductId : String := "-//kalends//Calendar Engine//EN"

/-- A new calendar of this program. -/
def new : Calendar := newFor ownProductId

/-! ### Places -/

/-- The component at a path of indices, of which there is at least one. -/
def at? (c : Calendar) : List Nat → Option Component
  | [] => none
  | i :: path => (c.components[i]?).bind fun child => child.at? path

/-- Changes the component at a path; a path that leads nowhere changes nothing. -/
def modifyAt (change : Component → Component) (path : List Nat) (c : Calendar) : Calendar :=
  match path with
  | [] => c
  | i :: path => { c with components := c.components.modify i (Component.modifyAt change path) }

/-- Whether a path leads to the calendar or to a component. -/
def hasPlace (c : Calendar) (path : List Nat) : Bool := path = [] || (c.at? path).isSome

/-- Changes the properties at a path, the empty path being the calendar itself. -/
def changeAt (c : Calendar) (path : List Nat) (change : Store.Change) : Calendar :=
  if path = [] then c.change change else c.modifyAt (·.change change) path

/-- Appends a component at a path, the empty path being the calendar itself. -/
def pushAt (c : Calendar) (path : List Nat) (child : Component) : Calendar :=
  if path = [] then c.push child else c.modifyAt (·.push child) path

end Calendar

end Almanac
