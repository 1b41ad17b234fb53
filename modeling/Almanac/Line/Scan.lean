/-!
Splitting a line at separators that are outside double quotes.  Every double quote opens or closes a
quotation; nothing else does.  In a list of parameter values a backslash outside quotes also takes
away the meaning of the character after it.

The pieces of a split are never empty as a list, and joined by the separator they give back the
line.
-/

namespace Almanac.Scan

/-- Whether the text after a character is inside quotes, given whether the character is. -/
def toggle (quoted : Bool) (c : Char) : Bool := if c = '"' then !quoted else quoted

/-- Puts a character in front of the first piece. -/
def prepend (c : Char) : List (List Char) → List (List Char)
  | [] => [[c]]
  | piece :: pieces => (c :: piece) :: pieces

/-- Breaks a text in two at the first separator outside quotes. -/
def cut? (sep : Char) (quoted : Bool) : List Char → Option (List Char × List Char)
  | [] => none
  | c :: rest =>
    if c = sep ∧ quoted = false then some ([], rest)
    else (cut? sep (toggle quoted c) rest).map fun (head, tail) => (c :: head, tail)

/-- Splits a text at every separator outside quotes. -/
def split (sep : Char) (quoted : Bool) : List Char → List (List Char)
  | [] => [[]]
  | c :: rest =>
    if c = sep ∧ quoted = false then [] :: split sep false rest
    else prepend c (split sep (toggle quoted c) rest)

/-- Splits a list of parameter values at the commas that are neither quoted nor after a
backslash. -/
def splitValues (quoted escaped : Bool) : List Char → List (List Char)
  | [] => [[]]
  | c :: rest =>
    if escaped then prepend c (splitValues quoted false rest)
    else if c = '\\' ∧ quoted = false then prepend c (splitValues quoted true rest)
    else if c = ',' ∧ quoted = false then [] :: splitValues quoted false rest
    else prepend c (splitValues (toggle quoted c) false rest)

/-- Splits a text at every separator. -/
def pieces (sep : Char) : List Char → List (List Char)
  | [] => [[]]
  | c :: rest => if c = sep then [] :: pieces sep rest else prepend c (pieces sep rest)

/-- Breaks a text in two at the first separator. -/
def cutPlain? (sep : Char) (text : List Char) : Option (List Char × List Char) :=
  match text.dropWhile (· ≠ sep) with
  | [] => none
  | _ :: tail => some (text.takeWhile (· ≠ sep), tail)

end Almanac.Scan
