import Almanac.Component.Basic
import Almanac.Time.DeltaForm

/-!
Alarms of an event: what they do, when, and with what words.  Setting one of these changes one
property.
-/

namespace Almanac

/-- What an alarm does. -/
inductive AlarmAction where
  | audio | display | email
  deriving DecidableEq, Repr

namespace AlarmAction

/-- The name of an action. -/
def text : AlarmAction → String
  | .audio => "AUDIO" | .display => "DISPLAY" | .email => "EMAIL"

/-- Reads the name of an action in either case. -/
def ofText? (word : String) : Option AlarmAction :=
  Text.lookUp? ([.audio, .display, .email].map fun a => (text a, a)) word

end AlarmAction

/-- An alarm. -/
structure Alarm where
  /-- Its properties. -/
  properties : List Property
  /-- The components in it. -/
  components : List Component
  deriving DecidableEq

namespace Alarm

/-- The alarm that a component is, if it is one. -/
def ofComponent? (c : Component) : Option Alarm :=
  if c.is .alarm then some ⟨c.properties, c.components⟩ else none

/-- What the alarm does, if it is something known. -/
def action? (a : Alarm) : Option AlarmAction :=
  (Store.text? a.properties "ACTION").bind AlarmAction.ofText?

/-- When it goes off, as written. -/
def trigger? (a : Alarm) : Option String := Store.text? a.properties "TRIGGER"

/-- Its words. -/
def description? (a : Alarm) : Option String := Store.text? a.properties "DESCRIPTION"

/-- What can be set. -/
inductive Edit where
  | action (a : AlarmAction)
  | trigger (d : Delta)
  | description (words : String)
  deriving DecidableEq, Repr

/-- The change that an edit makes. -/
def Edit.change : Edit → Store.Change
  | .action a => .plain "ACTION" a.text
  | .trigger d => .plain "TRIGGER" (String.ofList d.text)
  | .description words => .plain "DESCRIPTION" words

end Alarm

end Almanac
