import Almanac.Component.Basic

/-!
Time zones of a calendar.  They are kept and named, and no offsets are reckoned with them.
-/

namespace Almanac

/-- A time zone. -/
structure Timezone where
  /-- Its properties. -/
  properties : List Property
  /-- The components in it. -/
  components : List Component
  deriving DecidableEq

namespace Timezone

/-- The time zone that a component is, if it is one. -/
def ofComponent? (c : Component) : Option Timezone :=
  if c.is .timezone then some ⟨c.properties, c.components⟩ else none

/-- The time zone as a component. -/
def toComponent (z : Timezone) : Component := ⟨.known .timezone, z.properties, z.components⟩

/-- A new time zone with a name. -/
def new (id : String) : Timezone := ⟨Store.set [] (.plain "TZID" id), []⟩

/-- Its name. -/
def id? (z : Timezone) : Option String := Store.text? z.properties "TZID"

/-- The periods of standard time. -/
def standard (z : Timezone) : List Component := z.components.filter (·.is .standard)

/-- The periods of daylight saving time. -/
def daylight (z : Timezone) : List Component := z.components.filter (·.is .daylight)

end Timezone

end Almanac
