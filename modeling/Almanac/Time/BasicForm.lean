import Almanac.Text.Blank
import Almanac.Text.Numeral
import Almanac.Time.Instant

/-!
The basic form of dates and moments: `YYYYMMDD` and `YYYYMMDDTHHMMSSZ`.

A year from 0 to 9999 is written with four digits; any other year has a sign in front.  A leap
second is written as second 60, and the fraction of a second is not written.

Reading a date wants its eight digits.  Reading a moment is lenient about its fields: each may have
blanks in front and fewer digits than its width, and a signed year any number of digits.
-/

namespace Almanac

namespace Date

/-- A year in four digits, or with a sign and at least four digits. -/
def yearText (year : Int) : List Char :=
  if 0 ≤ year ∧ year ≤ 9999 then Text.padded 4 year.toNat
  else (if year < 0 then '-' else '+') :: Text.padded 4 year.natAbs

/-- A date as `YYYYMMDD`. -/
def basicText (d : Date) : List Char :=
  yearText d.year ++ Text.padded 2 d.month ++ Text.padded 2 d.day

/-- The date with this year, month and day, if it is in the calendar. -/
def ofFields? (year : Int) (month day : Nat) : Option Date :=
  let d : Date := ⟨year, month, day⟩
  if d.Valid then some d else none

/-- Reads exactly eight digits. -/
def ofBasicText? (cs : List Char) : Option Date :=
  if cs.length = 8 ∧ cs.all Char.isDigit then
    ofFields? (Text.digitValue (cs.take 4)) (Text.digitValue ((cs.drop 4).take 2))
      (Text.digitValue (cs.drop 6))
  else none

end Date

namespace Instant

/-- The second of the minute as it is written: 60 in a leap second. -/
def shownSecond (t : Instant) : Nat := (t.second % 60).toNat + t.nano / 1000000000

/-- The minute of the hour. -/
def minute (t : Instant) : Nat := (t.clock / 60 % 60).toNat

/-- The hour of the day. -/
def hour (t : Instant) : Nat := (t.clock / 3600).toNat

/-- The date of a moment as `YYYYMMDD`. -/
def basicDateText (t : Instant) : List Char := t.date.basicText

/-- A moment as `YYYYMMDDTHHMMSSZ`. -/
def basicText (t : Instant) : List Char :=
  t.basicDateText ++ 'T' :: Text.padded 2 t.hour ++ Text.padded 2 t.minute
    ++ Text.padded 2 t.shownSecond ++ ['Z']

/-- Midnight at the beginning of a date. -/
def midnight? (d : Date) : Option Instant := ofParts? (86400 * d.dayNumber) 0

/-- The moment at a time of day of a date.  Second 60 is the leap second of its minute. -/
def atTime? (d : Date) (hour minute second nano : Nat) : Option Instant :=
  if hour < 24 ∧ minute < 60 ∧ second ≤ 60 then
    let shown := if second = 60 then 59 else second
    let extra := if second = 60 then 1000000000 else 0
    ofParts? (86400 * d.dayNumber + (hour * 3600 + minute * 60 + shown : Nat)) (nano + extra)
  else none

end Instant

namespace Field

/-- A field of one to `width` digits after any blanks, and what follows it. -/
def number? (width : Nat) (cs : List Char) : Option (Nat × List Char) :=
  let cs := Text.trimStart cs
  let ds := (cs.take width).takeWhile Char.isDigit
  if ds = [] then none else some (Text.digitValue ds, cs.drop ds.length)

/-- All the digits at the front, at least one, and what follows them. -/
def digits? (cs : List Char) : Option (Nat × List Char) :=
  let ds := cs.takeWhile Char.isDigit
  if ds = [] then none else some (Text.digitValue ds, cs.dropWhile Char.isDigit)

/-- A year of up to four digits, or a sign and any number of digits, after any blanks. -/
def year? (cs : List Char) : Option (Int × List Char) :=
  match Text.trimStart cs with
  | '-' :: rest => (digits? rest).map fun (n, rest) => (-(n : Int), rest)
  | '+' :: rest => (digits? rest).map fun (n, rest) => ((n : Int), rest)
  | _ => (number? 4 cs).map fun (n, rest) => ((n : Int), rest)

/-- Takes away an expected character. -/
def literal? (c : Char) : List Char → Option (List Char)
  | d :: rest => if c = d then some rest else none
  | [] => none

end Field

namespace Instant

/-- Reads the fields of `YYYYMMDDTHHMMSS` and nothing after them. -/
def ofFields? (cs : List Char) : Option Instant := do
  let (year, cs) ← Field.year? cs
  let (month, cs) ← Field.number? 2 cs
  let (day, cs) ← Field.number? 2 cs
  let cs ← Field.literal? 'T' cs
  let (hour, cs) ← Field.number? 2 cs
  let (minute, cs) ← Field.number? 2 cs
  let (second, cs) ← Field.number? 2 cs
  guard (cs = [])
  let d ← Date.ofFields? year month day
  atTime? d hour minute second 0

/-- Takes away one `Z` at the end. -/
def dropZulu (cs : List Char) : List Char :=
  if cs.getLast? = some 'Z' then cs.dropLast else cs

/-- Reads a date, as its midnight, or a moment; a text with a `T` in it is read as a moment.  There
must be no blanks around it. -/
def ofBasicText? (cs : List Char) : Option Instant :=
  if 'T' ∈ cs then ofFields? (dropZulu cs) else (Date.ofBasicText? cs).bind midnight?

end Instant

end Almanac
