import Almanac.Property.Basic

/-!
The people at an event.  Each `ATTENDEE` property is one; the address is its value without
`mailto:`.
-/

namespace Almanac

/-- Whether a person takes part. -/
inductive Participation where
  | needsAction | accepted | declined | tentative | delegated | completed | inProcess
  /-- Any other answer, as written. -/
  | other (answer : String)
  deriving DecidableEq, Repr

namespace Participation

/-- The answers that have a name. -/
def named : List (String × Participation) :=
  [("NEEDS-ACTION", .needsAction), ("ACCEPTED", .accepted), ("DECLINED", .declined),
   ("TENTATIVE", .tentative), ("DELEGATED", .delegated), ("COMPLETED", .completed),
   ("IN-PROCESS", .inProcess)]

/-- Reads an answer; its name may be in either case. -/
def ofText (word : String) : Participation := (Text.lookUp? named word).getD (.other word)

/-- The answer as written. -/
def text : Participation → String
  | .needsAction => "NEEDS-ACTION" | .accepted => "ACCEPTED" | .declined => "DECLINED"
  | .tentative => "TENTATIVE" | .delegated => "DELEGATED" | .completed => "COMPLETED"
  | .inProcess => "IN-PROCESS" | .other answer => answer

end Participation

/-- An address without the scheme `mailto:`, which may be in either case. -/
def stripMailto (address : String) : String :=
  let chars := address.toList
  if (chars.take 7).map Char.toLower = "mailto:".toList then String.ofList (chars.drop 7)
  else address

/-- An address with the scheme, whether or not it came with it. -/
def mailto (address : String) : String := "mailto:" ++ stripMailto address

/-- A person at an event. -/
structure Attendee where
  /-- The property that names the person. -/
  property : Property
  deriving DecidableEq, Repr

namespace Attendee

/-- The person that a property names, if it names one. -/
def ofProperty? (p : Property) : Option Attendee := if p.isNamed "ATTENDEE" then some ⟨p⟩ else none

/-- The address. -/
def email (a : Attendee) : String := stripMailto a.property.value

/-- The name. -/
def commonName? (a : Attendee) : Option String := a.property.paramValue? "CN"

/-- The answer; without one it is still awaited. -/
def participation (a : Attendee) : Participation :=
  ((a.property.paramValue? "PARTSTAT").map Participation.ofText).getD .needsAction

/-- The role. -/
def role? (a : Attendee) : Option String := a.property.paramValue? "ROLE"

/-- Whether an answer is wanted. -/
def rsvp (a : Attendee) : Bool :=
  ((a.property.paramValue? "RSVP").map (Text.sameName "TRUE")).getD false

end Attendee

end Almanac
