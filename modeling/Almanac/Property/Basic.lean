import Almanac.Line.Escape
import Almanac.Property.ValueType

/-!
Properties: content lines whose values have been understood as far as their type asks.  The value of
a TEXT property is held unescaped and every other value as it stands on the line.

`toLine` and `ofLine` go to and from content lines, `text` writes the line.
-/

namespace Almanac

/-- A property of a component. -/
structure Property where
  /-- The name as written; it is looked up in either case. -/
  name : String
  /-- The parameters in order. -/
  params : List Param
  /-- The value, unescaped if it is TEXT. -/
  value : String
  deriving DecidableEq, Repr

namespace Property

/-- A property without parameters. -/
def plain (name value : String) : Property := ⟨name, [], value⟩

/-- The type of its value. -/
def type (p : Property) : ValueType := .resolve p.name p.params

/-- Whether its value is escaped on the line. -/
def isText (p : Property) : Bool := p.type.isText

/-- Whether it has this name, in either case. -/
def isNamed (p : Property) (name : String) : Bool := Text.sameName p.name name

/-- Reads a content line. -/
def ofLine (line : ContentLine) : Property :=
  ⟨line.name, line.params,
    if (ValueType.resolve line.name line.params).isText then Escape.decodeText line.rawValue
    else line.rawValue⟩

/-- The value as it stands on the line. -/
def rawValue (p : Property) : String := if p.isText then Escape.encodeText p.value else p.value

/-- The property as a content line. -/
def toLine (p : Property) : ContentLine := ⟨p.name, p.params, p.rawValue⟩

/-- The characters of its line, without a terminator. -/
def chars (p : Property) : List Char :=
  p.name.toList ++ p.params.flatMap (fun param => ';' :: param.chars) ++ ':' :: p.rawValue.toList

/-- Its line, without a terminator. -/
def text (p : Property) : String := String.ofList p.chars

/-- Reads a property from the line with a given number. -/
def parse (line : String) (number : Nat) : Except ParseError Property :=
  (ContentLine.parse line number).map ofLine

/-! ### Parameters -/

/-- Its first parameter of a name. -/
def param? (p : Property) (name : String) : Option Param := p.params.find? (·.isNamed name)

/-- The first value of its first parameter of a name. -/
def paramValue? (p : Property) (name : String) : Option String := (p.param? name).bind Param.value?

/-- Appends a parameter. -/
def addParam (p : Property) (param : Param) : Property := { p with params := p.params ++ [param] }

/-- Puts a parameter in the place of the first one of its name, or at the end if there is none. -/
def placeParam (param : Param) : List Param → List Param
  | [] => [param]
  | q :: rest => if q.isNamed param.name then param :: rest else q :: placeParam param rest

/-- Replaces the first parameter of a name, or appends it. -/
def setParam (p : Property) (param : Param) : Property :=
  { p with params := placeParam param p.params }

end Property

end Almanac
