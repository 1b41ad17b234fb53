import Almanac.Decimal.Shortest
import Almanac.Text.Printable

/-!
Trees of configuration.  A tree is a leaf, a list of trees, or a table of named trees, and each of
these may remember the source that it came from.

A place in a tree is a path of names and indices.  Putting something at a place makes the tables and
lists on the way, in place of whatever else is there; indices beyond the ends of a list lengthen it.
A table put at a place is merged into what is there, and anything else takes its place.

A leaf is asked for as a text or as an integer and is converted where the conversion is plain.
-/

namespace Almanac.Settings

/-- A single value. -/
inductive Leaf where
  | text (value : String)
  | int (value : Int)
  | float (value : Binary64)
  | bool (value : Bool)
  /-- Nothing, in a place that has not been filled. -/
  | unit
  deriving DecidableEq, Repr

/-- A tree of configuration. -/
inductive Entry where
  /-- A value and the name of the source that it came from; no name if it came from none. -/
  | leaf (value : Leaf) (source : String)
  /-- Trees in order, and the source. -/
  | list (items : List Entry) (source : String)
  /-- Named trees, and the source. -/
  | table (rows : List (String × Entry)) (source : String)

/-- One step to a place in a tree. -/
inductive Step where
  | name (name : String)
  /-- The place in a list, from its end if negative. -/
  | index (index : Int)
  deriving DecidableEq, Repr

namespace Entry

/-- A place that has not been filled. -/
def blank : Entry := .leaf .unit ""

/-- The rows of a table; anything else has none. -/
def rows : Entry → List (String × Entry)
  | .table rows _ => rows
  | _ => []

/-- The items of a list; anything else has none. -/
def items : Entry → List Entry
  | .list items _ => items
  | _ => []

/-- A table with other rows, or a new table from no source in place of anything else. -/
def withRows (e : Entry) (rows : List (String × Entry)) : Entry :=
  match e with
  | .table _ source => .table rows source
  | _ => .table rows ""

/-- A list with other items, or a new list from no source in place of anything else. -/
def withItems (e : Entry) (items : List Entry) : Entry :=
  match e with
  | .list _ source => .list items source
  | _ => .list items ""

/-- The tree under a name. -/
def get? (e : Entry) (name : String) : Option Entry := e.rows.lookup name

/-- Puts a tree under a name. -/
def setRow (rows : List (String × Entry)) (name : String) (child : Entry) : List (String × Entry) :=
  match rows with
  | [] => [(name, child)]
  | row :: rest => if row.1 = name then (name, child) :: rest else row :: setRow rest name child

/-- A list long enough for an index, and the place in it that the index means.  An index from the
end that lies before the front means the front of a list lengthened there. -/
def reach (items : List Entry) : Int → List Entry × Nat
  | .ofNat i => (items ++ List.replicate (i + 1 - items.length) blank, i)
  | .negSucc i =>
    (List.replicate (i + 1 - items.length) blank ++ items, items.length - (i + 1))

/-- Changes the tree at a place. -/
def alter (change : Entry → Entry) (e : Entry) : List Step → Entry
  | [] => change e
  | .name name :: path =>
    e.withRows (setRow e.rows name (alter change ((e.get? name).getD blank) path))
  | .index index :: path =>
    let (items, i) := reach e.items index
    e.withItems (items.set i (alter change (items.getD i blank) path))

mutual

/-- Merges a tree into another. -/
def merge : Entry → Entry → Entry
  | base, .table rows _ => base.withRows (mergeRows base.rows rows)
  | _, .leaf value source => .leaf value source
  | _, .list items source => .list items source

/-- Merges named trees into others, one after the other. -/
def mergeRows : List (String × Entry) → List (String × Entry) → List (String × Entry)
  | base, [] => base
  | base, (name, child) :: rest =>
    mergeRows (setRow base name (merge ((base.lookup name).getD blank) child)) rest

end

/-- Puts a tree at a place. -/
def put (base : Entry) (path : List Step) (e : Entry) : Entry := base.alter (merge · e) path

end Entry

/-! ### Paths -/

/-- Whether a character may stand in a name of a path. -/
def isPathChar (c : Char) : Bool := c.isAlphanum || c == '_' || c == '-'

/-- Reads an index between brackets, with blanks around it, after the opening bracket. -/
def indexAhead (cs : List Char) : Option (Int × List Char) :=
  let isSpace (c : Char) : Bool := c == ' ' || c == '\t'
  let cs := cs.dropWhile isSpace
  let sign := cs.takeWhile (· = '-')
  let digits := (cs.drop sign.length).takeWhile Char.isDigit
  let limit : Int := 9223372036854775808
  match (cs.drop (sign.length + digits.length)).dropWhile isSpace with
  | ']' :: rest => (Text.readSigned? (-limit) (limit - 1) (sign ++ digits)).map (·, rest)
  | _ => none

/-- Reads the steps after a name: names after dots, and indices between brackets. -/
def stepsAhead (fuel : Nat) (cs : List Char) : Option (List Step) :=
  match fuel, cs with
  | _, [] => some []
  | fuel + 1, '.' :: rest =>
    let name := rest.takeWhile isPathChar
    if name = [] then none
    else (stepsAhead fuel (rest.drop name.length)).map (.name (String.ofList name) :: ·)
  | fuel + 1, '[' :: rest =>
    (indexAhead rest).bind fun (index, rest) => (stepsAhead fuel rest).map (.index index :: ·)
  | _, _ => none

/-- The steps that a text spells; a text that spells none is a single name. -/
def pathOf (text : String) : List Step :=
  (stepsAhead (text.length + 1) ('.' :: text.toList)).getD [.name text]

/-! ### Conversions -/

/-- A mark around a cited name or value. -/
def ticked (text : String) : String := "`" ++ text ++ "`"

/-- A binary number with a point, so that it cannot be taken for an integer. -/
def pointed (value : Binary64) : String :=
  match value with
  | .finite .. => if '.' ∈ value.text.toList then value.text else value.text ++ ".0"
  | _ => value.text

/-- A value in words, for a complaint about its type. -/
def Leaf.words : Leaf → String
  | .text value => "string " ++ String.ofList (Text.cited value.toList)
  | .int value => "integer " ++ ticked (String.ofList (Text.signedDigits value))
  | .float value => "floating point " ++ ticked (pointed value)
  | .bool value => "boolean " ++ ticked (toString value)
  | .unit => "unit value"

/-- A tree in words, for a complaint about its type. -/
def Entry.words : Entry → String
  | .leaf value _ => value.words
  | .list _ _ => "sequence"
  | .table _ _ => "map"

/-- The source that a tree came from. -/
def Entry.source : Entry → String
  | .leaf _ source | .list _ source | .table _ source => source

/-- A value as a text; every value has one. -/
def Leaf.text? : Leaf → Option String
  | .text value => some value
  | .int value => some (String.ofList (Text.signedDigits value))
  | .float value => some value.text
  | .bool value => some (toString value)
  | .unit => none

/-- The least and the greatest integer of a setting. -/
def intRange : Int × Int := (-9223372036854775808, 9223372036854775807)

/-- The integer nearest to a binary number, halves away from zero, cut off at the range. -/
def roundAway : Binary64 → Int
  | .nan => 0
  | .infinite negative => if negative then intRange.1 else intRange.2
  | .finite negative mantissa exponent =>
    let (a, b) := Binary64.ratio mantissa 1 2 (-exponent)
    let size : Int := ((2 * a + b) / (2 * b) : Nat)
    if negative then max intRange.1 (-size) else min intRange.2 size

/-- A value as an integer.  Words for yes and no count as one and zero. -/
def Leaf.int? : Leaf → Option Int
  | .text value =>
    let word := value.toLower
    if word ∈ ["true", "on", "yes"] then some 1
    else if word ∈ ["false", "off", "no"] then some 0
    else Text.readSigned? intRange.1 intRange.2 value.toList
  | .int value => some value
  | .float value => some (roundAway value)
  | .bool value => some (if value then 1 else 0)
  | .unit => none

/-- What a conversion makes of the value of a leaf; a list or a table has none. -/
def Entry.value? (convert : Leaf → Option α) : Entry → Option α
  | .leaf value _ => convert value
  | _ => none

end Almanac.Settings
