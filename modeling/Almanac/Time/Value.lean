import Almanac.Error
import Almanac.Time.BasicForm
import Almanac.Time.DeltaForm

/-!
Dates, moments and lengths of time as values on a line: the reader of each form, with a complaint
that names the line and cites the text.  Blanks around a moment are passed over and not cited.
-/

namespace Almanac

/-- Reads a date of eight digits. -/
def Date.parse (text : String) (line : Nat) : Except ParseError Date :=
  match Date.ofBasicText? text.toList with
  | some d => .ok d
  | none => .error (.citing .invalidDateTime line text)

/-- Reads a moment, or a date as its midnight. -/
def Instant.parse (text : String) (line : Nat) : Except ParseError Instant :=
  match Instant.ofBasicText? (Text.trim text.toList) with
  | some t => .ok t
  | none => .error (.citing .invalidDateTime line (Text.trimmed text))

/-- Reads a length of time. -/
def Delta.parse (text : String) (line : Nat) : Except ParseError Delta :=
  match Delta.ofText? text.toList with
  | some d => .ok d
  | none => .error (.citing .invalidDuration line text)

end Almanac
