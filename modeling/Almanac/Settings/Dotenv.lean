import Almanac.Text.Alphanumeric
import Almanac.Text.Blank

/-!
Files of environment variables.  Each line is `NAME=value`, with `export` before the name if one
likes; empty lines and lines that begin with `#` say nothing.

A value ends at a comment after a blank.  Single quotes keep everything as it is; double quotes keep
blanks; a backslash takes away the meaning of a quote, a blank, a dollar sign or a backslash, and
`\n` is a line feed.  `$NAME` and `$\x7bNAME\x7d` stand for variables of the environment or of the
lines before. A quoted value may go on over several lines.  Reading stops at the first line that is
none of this, and what came before it counts.
-/

namespace Almanac.Dotenv

/-- Variables by name. -/
abbrev Variables := List (String × String)

/-! ### Lines -/

/-- Where the search for the end of a line stands. -/
inductive Place where
  /-- Only blanks of the line have been read. -/
  | start
  | plain
  /-- A blank came last. -/
  | blank
  | escaped | weak | weakEscaped | strong | strongEscaped
  deriving DecidableEq

/-- The place after one more character; nothing if a comment begins. -/
def Place.next? (place : Place) (c : Char) : Option Place :=
  match place, c with
  | .start, '#' | .blank, '#' => none
  | .start, _ => some (if Text.isBlank c then .start else opened c)
  | .plain, _ => some (if Text.isBlank c && c != '\r' then .blank else opened c)
  | .blank, _ => some (opened c)
  | .escaped, _ => some .plain
  | .weak, c => some (if c = '\\' then .weakEscaped else if c = '"' then .plain else .weak)
  | .weakEscaped, _ => some .weak
  | .strong, c => some (if c = '\\' then .strongEscaped else if c = '\'' then .plain else .strong)
  | .strongEscaped, _ => some .strong
where
  /-- The place after a character outside quotes. -/
  opened (c : Char) : Place :=
    if c = '\\' then .escaped else if c = '"' then .weak else if c = '\'' then .strong else .plain

/-- Whether a line feed ends the line here. -/
def Place.isOutside (place : Place) : Bool := place ∈ [.start, .plain, .blank, .escaped]

/-- Splits a text into lines that are complete as to their quotes, each without its terminator and
its comment; nothing in place of a last line that is not complete. -/
def lines (place : Place) (current : List Char) : List Char → List (Option (List Char))
  | [] =>
    if current = [] then []
    else if place = .plain ∨ place = .start then [some current.reverse]
    else [none]
  | c :: rest =>
    if c = '\n' ∧ place.isOutside then
      some (dropReturn current).reverse :: lines .start [] rest
    else match place.next? c with
      | some place => lines place (c :: current) rest
      | none => comment current.reverse rest
where
  /-- Drops a carriage return, the characters being in reverse. -/
  dropReturn : List Char → List Char
    | '\r' :: rest => rest
    | rest => rest
  /-- Passes over a comment. -/
  comment (line : List Char) : List Char → List (Option (List Char))
    | [] => [some line]
    | c :: rest => if c = '\n' then some line :: lines .start [] rest else comment line rest

/-! ### Values -/

/-- How far a value has been read. -/
structure Scan where
  /-- What it amounts to so far, in reverse. -/
  output : List Char
  /-- Whether a single quote is open. -/
  strong : Bool
  /-- Whether a double quote is open. -/
  weak : Bool
  /-- Whether a backslash came last. -/
  escaped : Bool
  /-- Whether the value is over and only blanks and a comment may follow. -/
  done : Bool
  /-- The name of a variable that is being read, in reverse, and whether it stands in braces. -/
  name : Option (List Char × Bool)
  deriving DecidableEq

/-- Nothing read yet. -/
def Scan.start : Scan := ⟨[], false, false, false, false, none⟩

/-- Adds a character to the value. -/
def Scan.emit (s : Scan) (c : Char) : Scan := { s with output := c :: s.output }

/-- Puts in the value of the variable whose name has been read. -/
def Scan.substitute (known : String → Option String) (s : Scan) : Scan :=
  match s.name with
  | none => s
  | some (name, _) =>
    let value := (known (String.ofList name.reverse)).getD ""
    { s with output := value.toList.reverse ++ s.output, name := none }

/-- Whether a character belongs to the name of a variable. -/
def isNameChar (c : Char) : Bool := Text.isAlphanumeric c

/-- Reads one more character of a value that is not over. -/
def Scan.read (known : String → Option String) (s : Scan) (c : Char) : Option Scan :=
  if s.escaped then
    if c ∈ ['\\', '\'', '"', '$', ' '] then some { s.emit c with escaped := false }
    else if c = 'n' then some { s.emit '\n' with escaped := false }
    else none
  else if s.strong then
    some (if c = '\'' then { s with strong := false } else s.emit c)
  else match s.name with
    | some (name, braces) =>
      if isNameChar c then some { s with name := some (c :: name, braces) }
      else if braces then
        if c = '\x7d' then some (s.substitute known)
        else some { s with name := some (c :: name, true) }
      else if c = '\x7b' ∧ name = [] then some { s with name := some ([], true) }
      else if c = '$' then some { s.substitute known with name := some ([], false) }
      else some ((s.substitute known).emit c)
    | none =>
      if c = '$' then some { s with name := some ([], false) }
      else if s.weak then
        some (if c = '"' then { s with weak := false }
          else if c = '\\' then { s with escaped := true }
          else s.emit c)
      else if c = '\'' then some { s with strong := true }
      else if c = '"' then some { s with weak := true }
      else if c = '\\' then some { s with escaped := true }
      else if c = ' ' ∨ c = '\t' then some { s with done := true }
      else some (s.emit c)

/-- Reads the characters of a value. -/
def Scan.run (known : String → Option String) (s : Scan) : List Char → Option Scan
  | [] => some s
  | c :: rest =>
    if s.done then
      if c = ' ' ∨ c = '\t' then s.run known rest
      else if c = '#' then some s
      else none
    else (s.read known c).bind fun s => s.run known rest

/-- Reads a value. -/
def value? (known : String → Option String) (cs : List Char) : Option String :=
  (Scan.start.run known cs).bind fun s =>
    if (s.name.any fun name => name.2) || s.strong || s.weak then none
    else some (String.ofList (s.substitute known).output.reverse)

/-- Reads the name at the front of a line. -/
def name? (line : List Char) : Option (String × List Char) :=
  match line with
  | c :: _ =>
    if c.isAlpha ∨ c = '_' then
      let isName (c : Char) : Bool := c.isAlphanum || c == '_' || c == '.'
      some (String.ofList (line.takeWhile isName), line.dropWhile isName)
    else none
  | [] => none

/-- Reads the equals sign at the front of a line. -/
def equals? : List Char → Option (List Char)
  | '=' :: rest => some rest
  | _ => none

/-- Reads a line: a variable, or nothing if the line says nothing. -/
def line? (known : String → Option String) (line : List Char) : Option (Option (String × String)) :=
  let line := Text.trim line
  if line = [] ∨ line.head? = some '#' then some none
  else do
    let (name, rest) ← name? line
    let rest := Text.trimStart rest
    let (name, rest) ← match equals? rest with
      | some rest => some (name, rest)
      | none =>
        if name = "export" then do
          let (name, rest) ← name? rest
          some (name, ← equals? (Text.trimStart rest))
        else none
    let written := Text.trimStart rest
    if written = [] ∨ written.head? = some '#' then some (some (name, ""))
    else (value? known written).map fun value => some (name, value)

/-- Adds the variables of lines to an environment, in which the variable that is there first
counts. -/
def load (environment seen : Variables) : List (Option (List Char)) → Variables
  | some line :: rest =>
    let known (name : String) : Option String := (environment.lookup name).or (seen.lookup name)
    match line? known line with
    | some (some (name, value)) =>
      let environment :=
        if (environment.lookup name).isSome then environment else environment ++ [(name, value)]
      load environment ((name, value) :: seen) rest
    | some none => load environment seen rest
    | none => environment
  | _ => environment

/-- An environment with the variables of a file added.  A mark of the byte order at the front of
the file says nothing. -/
def extend (environment : Variables) (file : String) : Variables :=
  let text := match file.toList with
    | '\ufeff' :: rest => rest
    | text => text
  load environment [] (lines .start [] text)

end Almanac.Dotenv
