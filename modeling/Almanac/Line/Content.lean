import Almanac.Error
import Almanac.Line.Quote
import Almanac.Line.Scan
import Almanac.Text.Letter

/-!
Content lines: a name, parameters and a value.

    NAME ;PARAM=value,"value" ;PARAM=value :the value

The first colon outside quotes ends the head of the line, semicolons outside quotes separate its
parts, and the first equals sign of a part ends the name of the parameter.  A part without an equals
sign is a parameter without values; an empty part is none.
-/

namespace Almanac

/-- A parameter: a name as written and its values in order. -/
structure Param where
  /-- The name as written; it is looked up in either case. -/
  name : String
  /-- The values, decoded. -/
  values : List String
  deriving DecidableEq, Repr

namespace Param

/-- A parameter with one value. -/
def single (name value : String) : Param := ⟨name, [value]⟩

/-- Its first value. -/
def value? (p : Param) : Option String := p.values.head?

/-- Whether one of its values is this word, in either case. -/
def hasValue (p : Param) (word : String) : Bool := p.values.any (Text.sameName word)

/-- Whether it has this name, in either case. -/
def isNamed (p : Param) (name : String) : Bool := Text.sameName p.name name

/-- The time zone of a moment. -/
def tzid (zone : String) : Param := single "TZID" zone

/-- The type of a value. -/
def valueType (type : String) : Param := single "VALUE" type

/-- The name of a person. -/
def cn (name : String) : Param := single "CN" name

/-- Whether a person takes part. -/
def partstat (status : String) : Param := single "PARTSTAT" status

/-- In which role a person takes part. -/
def role (role : String) : Param := single "ROLE" role

/-- Whether an answer is wanted. -/
def rsvp (wanted : Bool) : Param := single "RSVP" (if wanted then "TRUE" else "FALSE")

/-- The media type of an attachment. -/
def fmttype (media : String) : Param := single "FMTTYPE" media

/-- The encoding of a value. -/
def encoding (encoding : String) : Param := single "ENCODING" encoding

/-- The values as written, with commas between them. -/
def valuesText (values : List String) : List Char :=
  (values.map fun value => Quote.encode value.toList).intersperse [','] |>.flatten

/-- A parameter as written. -/
def chars (p : Param) : List Char :=
  p.name.toList ++ if p.values = [] then [] else '=' :: valuesText p.values

/-- A parameter as written. -/
def text (p : Param) : String := String.ofList p.chars

/-- Reads one part of the head of a line. -/
def ofChars (part : List Char) : Param :=
  match Scan.cutPlain? '=' part with
  | none => ⟨String.ofList part, []⟩
  | some (name, list) =>
    ⟨String.ofList name, (Scan.splitValues false false list).map fun written =>
      String.ofList (Quote.decode written)⟩

end Param

/-- A line taken apart, its value as written. -/
structure ContentLine where
  /-- The name as written. -/
  name : String
  /-- The parameters in order. -/
  params : List Param
  /-- The value as written. -/
  rawValue : String
  deriving DecidableEq, Repr

namespace ContentLine

/-- Takes a line apart, or says what it lacks. -/
def ofChars (line : List Char) : Except ParseError.Kind ContentLine :=
  match Scan.cut? ':' false line with
  | none => .error .missingColon
  | some (head, value) =>
    match Scan.split ';' false head with
    | [] | [] :: _ => .error .missingPropertyName
    | name :: parts =>
      .ok ⟨String.ofList name, (parts.filter (· ≠ [])).map Param.ofChars, String.ofList value⟩

/-- Takes the line with a given number apart; a complaint cites the whole line. -/
def parse (line : String) (number : Nat) : Except ParseError ContentLine :=
  (ofChars line.toList).mapError fun kind => ⟨kind, number, some line⟩

end ContentLine

end Almanac
