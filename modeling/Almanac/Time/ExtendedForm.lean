import Almanac.Time.BasicForm

/-!
The extended form of moments, `YYYY-MM-DDTHH:MM:SS` with a fraction and an offset from universal
time.

A fraction is written with three, six or nine digits, whichever are enough, and left out when it is
zero.  Reading allows blanks around the fields and separators, `t` or a blank for the `T`, a
fraction of any length of which nine digits count, and `Z`, `UTC` or an offset in hours and minutes.
-/

namespace Almanac

namespace Date

/-- A date as `YYYY-MM-DD`. -/
def extendedText (d : Date) : List Char :=
  yearText d.year ++ '-' :: Text.padded 2 d.month ++ '-' :: Text.padded 2 d.day

end Date

namespace Instant

/-- The fraction of a second in three, six or nine digits after a point; nothing if it is zero. -/
def fractionText (nano : Nat) : List Char :=
  if nano = 0 then []
  else if nano % 1000000 = 0 then '.' :: Text.padded 3 (nano / 1000000)
  else if nano % 1000 = 0 then '.' :: Text.padded 6 (nano / 1000)
  else '.' :: Text.padded 9 nano

/-- The time of day as `HH:MM:SS` with its fraction. -/
def timeText (t : Instant) : List Char :=
  Text.padded 2 t.hour ++ ':' :: Text.padded 2 t.minute ++ ':' :: Text.padded 2 t.shownSecond
    ++ fractionText (t.nano % 1000000000)

/-- Date and time with the given mark between them and the given zone after them. -/
def extendedText (t : Instant) (between zone : String) : String :=
  String.ofList (t.date.extendedText ++ between.toList ++ t.timeText ++ zone.toList)

/-- A moment with the zone `Z`. -/
def zuluText (t : Instant) : String := t.extendedText "T" "Z"

/-- A moment with the zone as an offset of zero. -/
def offsetText (t : Instant) : String := t.extendedText "T" "+00:00"

/-- A moment for a sentence, with the name of the zone. -/
def spokenText (t : Instant) : String := t.extendedText " " " UTC"

end Instant

namespace Field

/-- A fraction of a second in nanoseconds, if a point follows: nine digits count. -/
def fraction? (cs : List Char) : Option (Nat × List Char) :=
  match cs with
  | '.' :: rest =>
    let ds := rest.takeWhile Char.isDigit
    let counted := ds.take 9
    if ds = [] then none
    else
      some (Text.digitValue counted * Nat.pow 10 (9 - counted.length), rest.dropWhile Char.isDigit)
  | _ => some (0, cs)

/-- Two digits, at once. -/
def pair? : List Char → Option (Nat × List Char)
  | a :: b :: rest =>
    if a.isDigit ∧ b.isDigit then some (Text.digitValue [a, b], rest) else none
  | _ => none

/-- An offset from universal time in seconds: `Z`, `UTC`, or a sign, hours and minutes, with colons
and blanks between the two. -/
def offset? (cs : List Char) : Option (Int × List Char) :=
  if Text.caseless (String.ofList (cs.take 3)) = ['u', 't', 'c'] then some (0, cs.drop 3)
  else match cs with
    | [] => none
    | c :: rest =>
      if c = 'Z' ∨ c = 'z' then some (0, rest)
      else if c = '+' ∨ c = '-' ∨ c = '\u2212' then do
        let (hours, rest) ← pair? rest
        let (minutes, rest) ← pair? (rest.dropWhile fun d => d == ':' || Text.isBlank d)
        guard (hours < 24 ∧ minutes < 60)
        let seconds : Int := hours * 3600 + minutes * 60
        some (if c = '+' then seconds else -seconds, rest)
      else none

end Field

namespace Instant

/-- Reads a moment in extended form. -/
def ofExtendedText? (cs : List Char) : Option Instant := do
  let (year, cs) ← Field.year? cs
  let cs ← Field.literal? '-' (Text.trimStart cs)
  let (month, cs) ← Field.number? 2 cs
  let cs ← Field.literal? '-' (Text.trimStart cs)
  let (day, cs) ← Field.number? 2 cs
  let mark ← cs.head?
  guard (mark = 'T' ∨ mark = 't' ∨ mark = ' ')
  let (hour, cs) ← Field.number? 2 cs.tail
  let cs ← Field.literal? ':' (Text.trimStart cs)
  let (minute, cs) ← Field.number? 2 cs
  let cs ← Field.literal? ':' (Text.trimStart cs)
  let (second, cs) ← Field.number? 2 cs
  let (nano, cs) ← Field.fraction? cs
  let (offset, cs) ← Field.offset? (Text.trimStart cs)
  guard (Text.trimStart cs = [])
  let d ← Date.ofFields? year month day
  let shown ← atTime? d hour minute second nano
  ofParts? (shown.second - offset) shown.nano

end Instant

end Almanac
