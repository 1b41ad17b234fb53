/-!
The quoting of parameter values.  A value in which a separator, a backslash, a quote, a line feed or
a caret occurs is written between double quotes, and inside them a caret, a line feed and a quote
are written as `^^`, `^n` and `^'`.  Any other value is written as it is.

Reading strips the quotes, if the value has them at both ends, and undoes the carets.  A value
without quotes may also have a comma written as `\,`.
-/

namespace Almanac.Quote

/-- Whether a value with this character in it is written between quotes. -/
def isSpecial (c : Char) : Bool := c ∈ [':', ';', ',', '\\', '"', '\n', '^']

/-- The written form of one character between quotes. -/
def encodeChar (c : Char) : List Char :=
  if c = '^' then ['^', '^']
  else if c = '\n' then ['^', 'n']
  else if c = '"' then ['^', '\'']
  else [c]

/-- The written form of a value. -/
def encode (value : List Char) : List Char :=
  if value.any isSpecial then '"' :: value.flatMap encodeChar ++ ['"'] else value

/-- Undoes the carets; a caret before any other character stands for itself. -/
def decodeCarets : List Char → List Char
  | '^' :: '^' :: rest => '^' :: decodeCarets rest
  | '^' :: 'n' :: rest => '\n' :: decodeCarets rest
  | '^' :: '\'' :: rest => '"' :: decodeCarets rest
  | c :: rest => c :: decodeCarets rest
  | [] => []

/-- Drops the backslashes that stand before commas. -/
def decodeCommas : List Char → List Char
  | '\\' :: ',' :: rest => ',' :: decodeCommas rest
  | c :: rest => c :: decodeCommas rest
  | [] => []

/-- What stands between the quotes, if there is a quote at both ends. -/
def inner? : List Char → Option (List Char)
  | '"' :: rest => if rest.getLast? = some '"' then some rest.dropLast else none
  | _ => none

/-- The value that a written form stands for. -/
def decode (written : List Char) : List Char :=
  match inner? written with
  | some inner => decodeCarets inner
  | none => decodeCarets (decodeCommas written)

/-- The written form of a string. -/
def encodeText (value : String) : String := String.ofList (encode value.toList)

end Almanac.Quote
