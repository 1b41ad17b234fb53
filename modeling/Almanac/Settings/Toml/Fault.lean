/-!
Faults of a configuration file, and how they are reported.

A fault says what is wrong, what would have been right in its place, and where it lies.  Places are
counted in bytes, which is how the report underlines them: it cites the line in which the fault
begins and puts a mark under every byte of it that lies on that line, at least one.
-/

namespace Almanac.Toml

/-- The number of bytes of some characters. -/
def byteCount (cs : List Char) : Nat := cs.foldl (fun n c => n + c.utf8Size) 0

/-- A stretch of a text, in bytes from its beginning. -/
structure Stretch where
  /-- The number of bytes before it. -/
  start : Nat
  /-- The number of bytes up to its end. -/
  stop : Nat
  deriving DecidableEq, Repr

/-- The empty stretch at a place. -/
def Stretch.spot (place : Nat) : Stretch := ⟨place, place⟩

/-- Something that would have been right. -/
inductive Wanted where
  /-- These characters. -/
  | exactly (text : String)
  /-- Anything of this description. -/
  | described (words : String)
  deriving DecidableEq, Repr

/-- What is wrong with a text. -/
structure Fault where
  /-- What is wrong. -/
  message : String
  /-- What would have been right, if the fault tells. -/
  wanted : Option (List Wanted)
  /-- Where it is wrong, if a single place is. -/
  place : Option Stretch
  deriving DecidableEq, Repr

/-- A fault that does not tell what would have been right. -/
def Fault.plain (message : String) (place : Stretch) : Fault := ⟨message, none, some place⟩

/-- A fault that tells what would have been right. -/
def Fault.wanting (message : String) (wanted : List Wanted) (place : Stretch) : Fault :=
  ⟨message, some wanted, some place⟩

/-! ### The report -/

/-- The words for something that would have been right. -/
def Wanted.words : Wanted → String
  | .exactly "\n" => "newline"
  | .exactly text => "`" ++ text ++ "`"
  | .described words => words

/-- The sentence that says what is wrong and what would have been right. -/
def Fault.sentence (f : Fault) : String :=
  match f.wanted with
  | none => f.message
  | some [] => f.message ++ ", expected nothing"
  | some wanted => f.message ++ ", expected " ++ ", ".intercalate (wanted.map Wanted.words)

/-- Cuts a text after a number of bytes. -/
def cutAt (bytes : Nat) (cs : List Char) : List Char × List Char :=
  match bytes, cs with
  | 0, cs => ([], cs)
  | _, [] => ([], [])
  | bytes + 1, c :: rest =>
    let (before, after) := cutAt (bytes + 1 - c.utf8Size) rest
    (c :: before, after)
termination_by structural cs

/-- The number of the line and of the column of a place, both from zero.  A column counts
characters, but bytes where a character of several bytes begins; the end of the text is the column
after its last character. -/
def positionOf (text : List Char) (place : Nat) : Nat × Nat :=
  let (before, after) := cutAt place text
  let column (behind : List Char) : List Char := behind.reverse.takeWhile (· ≠ '\n')
  match after with
  | [] => (before.dropLast.count '\n', (column before.dropLast).length + 1)
  | c :: _ =>
    let behind := column before
    (before.count '\n', if c.utf8Size = 1 then behind.length else byteCount behind)

/-- The lines of a text, without their line feeds. -/
def contents (text : List Char) : List (List Char) :=
  text.foldr (fun c rows =>
    match rows with
    | row :: rows => if c = '\n' then [] :: row :: rows else (c :: row) :: rows
    | [] => []) [[]]

/-- The picture of a stretch: the line in which it begins, with marks under it. -/
def picture (text : List Char) (place : Stretch) : String :=
  let (row, column) := positionOf text place.start
  let content := (contents text).getD row []
  let marks := max 1 (min (place.stop - place.start) (byteCount content - column))
  let number := toString (row + 1)
  let margin := String.ofList (List.replicate (number.length + 1) ' ') ++ "|"
  s!"TOML parse error at line {number}, column {column + 1}\n{margin}\n{number} | "
    ++ String.ofList content ++ "\n" ++ margin
    ++ String.ofList (List.replicate (column + 1) ' ' ++ List.replicate marks '^') ++ "\n"

/-- The report of a fault in a text. -/
def Fault.report (f : Fault) (text : List Char) : String :=
  match f.place with
  | none => f.sentence ++ "\n"
  | some place => picture text place ++ f.sentence ++ "\n"

end Almanac.Toml
