import Almanac.Calendar.Basic

/-!
The settings of the program: how much it tells about its work, the product identifier that it writes
into new calendars, and how many days ahead it looks for occurrences when nothing else bounds them.
-/

namespace Almanac

/-- The settings of the program. -/
structure Settings where
  /-- How much it tells about its work. -/
  level : String
  /-- The product identifier of new calendars. -/
  productId : String
  /-- How many days ahead it looks for occurrences. -/
  horizonDays : Int
  deriving DecidableEq, Repr

namespace Settings

/-- The settings when nothing is set. -/
def default : Settings := ⟨"info", Calendar.ownProductId, 14⟩

/-- How far ahead occurrences are looked for.  A number of days that is not positive or too great to
reckon with stands for a fortnight. -/
def horizon (s : Settings) : Delta :=
  if 0 < s.horizonDays then (Delta.ofDays? s.horizonDays).getD .fortnight else .fortnight

/-- The complaint about settings that cannot be worked with, if there is one. -/
def complaint? (s : Settings) : Option String :=
  if Text.trim s.productId.toList = [] then
    some "Configuration error: calendar.product_id must not be empty"
  else none

end Settings

end Almanac
