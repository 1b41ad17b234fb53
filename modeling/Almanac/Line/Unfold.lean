import Almanac.Error

/-!
From bytes to lines.  A physical line ends with a line feed, or a carriage return and a line feed,
or with the input.  A physical line that begins with a space or a tab continues the line before it,
without that first byte; this undoes the folding of long lines, also where a fold separates the
bytes of one character.  Empty physical lines between lines are passed over, and one of them ends
the line before it, so that a space after an empty line is text.

    SUMMARY:a long   ─┐
     er line         ─┴─▶ line 1  "SUMMARY:a longer line"
                     ───▶ nothing
     X               ───▶ line 4  " X"
-/

namespace Almanac

/-- An unfolded line as bytes, with the number of the physical line on which it starts. -/
structure RawLine where
  /-- Number of its first physical line, from one. -/
  number : Nat
  /-- Its bytes without terminators and fold marks. -/
  bytes : List UInt8
  deriving DecidableEq, Repr

namespace RawLine

/-- The byte of a line feed. -/
def lineFeed : UInt8 := 10

/-- The byte of a carriage return. -/
def carriageReturn : UInt8 := 13

/-- Whether a byte at the beginning of a physical line marks it as a continuation. -/
def isFoldMark (b : UInt8) : Bool := b == 32 || b == 9

/-- Drops one carriage return at the end. -/
def dropReturn (line : List UInt8) : List UInt8 :=
  if line.getLast? = some carriageReturn then line.dropLast else line

/-- The physical lines of an input, each without its terminator.  The bytes after the last line feed
are a line unless there are none. -/
def physicalLines (bytes : List UInt8) : List (List UInt8) :=
  go [] bytes
where
  /-- Reads on with the bytes of the current line in reverse. -/
  go (current : List UInt8) : List UInt8 → List (List UInt8)
    | [] => if current = [] then [] else [current.reverse]
    | b :: rest =>
      if b = lineFeed then dropReturn current.reverse :: go [] rest else go (b :: current) rest

/-- Joins physical lines, the first of which has the given number, to the line that is being
read. -/
def unfold (current : Option RawLine) (number : Nat) : List (List UInt8) → List RawLine
  | [] => current.toList
  | [] :: rest =>
    match current with
    | none => unfold none (number + 1) rest
    | some line => line :: unfold none (number + 1) rest
  | (b :: bytes) :: rest =>
    match current with
    | none => unfold (some ⟨number, b :: bytes⟩) (number + 1) rest
    | some line =>
      if isFoldMark b then unfold (some ⟨line.number, line.bytes ++ bytes⟩) (number + 1) rest
      else line :: unfold (some ⟨number, b :: bytes⟩) (number + 1) rest

/-- The lines of an input in order. -/
def ofBytes (bytes : List UInt8) : List RawLine := unfold none 1 (physicalLines bytes)

/-- The text of a line, or where it stops being UTF-8. -/
def text (line : RawLine) : Except ReadError String :=
  match Utf8.decode line.bytes with
  | .ok chars => .ok (String.ofList chars)
  | .error fault => .error (.notUtf8 line.number fault)

end RawLine

end Almanac
