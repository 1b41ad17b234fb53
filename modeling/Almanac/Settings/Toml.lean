import Almanac.Settings.Entry
import Almanac.Settings.Toml.Document

/-!
Configuration files as trees.  A file is first read into tables, and the first fault in it is
reported with its place.  Then its numbers are worked out in the order of the names, and the first
that is out of range is reported without one.
-/

namespace Almanac.Toml

open Settings (Entry Leaf)

/-- Works out digits in a base, starting from a number, up to a limit. -/
def digitsUpTo (limit base : Nat) (n : Nat) (overflow : String) : List Char → Except String Nat
  | [] => .ok n
  | c :: rest =>
    match (hexDigit? c).filter (· < base) with
    | none => .error "invalid digit found in string"
    | some digit =>
      if limit < n * base + digit then .error overflow
      else digitsUpTo limit base (n * base + digit) overflow rest

/-- Works out an integer. -/
def integerValue (base : Nat) (digits : List Char) : Except String Int :=
  let large := "number too large to fit in target type"
  let small := "number too small to fit in target type"
  let limit : Nat := 9223372036854775807
  match digits with
  | [] => .error "cannot parse integer from empty string"
  | '-' :: digits => (digitsUpTo (limit + 1) base 0 small digits).map fun n => -(n : Int)
  | '+' :: digits => (digitsUpTo limit base 0 large digits).map Int.ofNat
  | digits => (digitsUpTo limit base 0 large digits).map Int.ofNat

/-- Works out a binary number.  Only one that is spelled so is infinite. -/
def floatValue (spelling : List Char) : Except String Binary64 :=
  match Binary64.ofText? (String.ofList spelling) with
  | some (.infinite negative) =>
    if 'i' ∈ spelling then .ok (.infinite negative)
    else .error "floating-point number overflowed"
  | some x => .ok x
  | none => .error "invalid float literal"

/-- Works out a single value. -/
def Scalar.leaf : Scalar → Except String Leaf
  | .text value | .moment value => .ok (.text (String.ofList value))
  | .integer base digits => (integerValue base digits).map .int
  | .float spelling => (floatValue spelling).map .float
  | .truth value => .ok (.bool value)

mutual

/-- The tree of a value, with the source that it comes from. -/
def entryOf (source : String) : Node → Except String Entry
  | .scalar value => value.leaf.map fun leaf => .leaf leaf source
  | .list items | .tables items => (entriesOf source items).map fun items => .list items source
  | .table _ rows => (rowsOf source rows).map fun rows => .table rows source

/-- The trees of the values of a list. -/
def entriesOf (source : String) : List Node → Except String (List Entry)
  | [] => .ok []
  | item :: rest => do
    let entry ← entryOf source item
    return entry :: (← entriesOf source rest)

/-- The trees of the rows of a table. -/
def rowsOf (source : String) : List (String × Node) → Except String (List (String × Entry))
  | [] => .ok []
  | (name, node) :: rest => do
    let entry ← entryOf source node
    return (name, entry) :: (← rowsOf source rest)

end

/-- Reads a configuration file, or reports what is wrong with it.  A mark of the byte order at its
front says nothing. -/
def read (source text : String) : Except String Entry := do
  let text := match text.toList with
    | [] => []
    | c :: rest => if c = orderMark then rest else c :: rest
  let rows ← (document text).mapError fun fault => fault.report text
  return .table (← rowsOf source rows) source

end Almanac.Toml
