import Almanac.Component.Basic

/-!
The written form of components and calendars: a line that opens it, its properties, its components,
and a line that closes it.  Every line ends with a carriage return and a line feed, and none is
folded.

    BEGIN:VEVENT
    SUMMARY:…
    BEGIN:VALARM
    END:VALARM
    END:VEVENT
-/

namespace Almanac

/-- The lines between the opening and the closing line of a token, with those two. -/
def enclose (token : String) (inner : List String) : List String :=
  ("BEGIN:" ++ token) :: (inner ++ ["END:" ++ token])

/-- Lines one after the other, each with its terminator. -/
def joinLines (lines : List String) : String :=
  lines.foldr (fun line rest => line ++ "\r\n" ++ rest) ""

namespace Component

mutual

/-- The lines of a component. -/
def lines : Component → List String
  | ⟨token, properties, components⟩ =>
    enclose token.text (properties.map Property.text ++ linesOf components)

/-- The lines of components one after the other. -/
def linesOf : List Component → List String
  | [] => []
  | c :: rest => c.lines ++ linesOf rest

end

/-- The written form of a component. -/
def text (c : Component) : String := joinLines c.lines

end Component

namespace Calendar

/-- The lines of a calendar. -/
def lines (c : Calendar) : List String :=
  enclose calendarToken (c.properties.map Property.text ++ Component.linesOf c.components)

/-- The written form of a calendar. -/
def text (c : Calendar) : String := joinLines c.lines

end Calendar

end Almanac
