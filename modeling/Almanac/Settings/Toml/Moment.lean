import Almanac.Text.Numeral

/-!
Dates and times in a configuration file: a date, a time of day, or both with a `T` or a blank
between them, and then perhaps the distance from universal time.

What is read is kept as text in one form: a `T` between date and time, at most nine digits of a
second without zeros at the end, and the distance with its sign or a `Z`.
-/

namespace Almanac.Toml.Moment

open Text (padded digitValue)

/-- A fault of a date or time, in words. -/
abbrev Complaint := String

/-- A reader of the characters of a date or time. -/
abbrev Reader (α : Type) := List Char → Except Complaint (α × List Char)

/-- The complaint that something else was expected in a part. -/
def expected (part words : String) : Except Complaint α :=
  .error ("invalid " ++ part ++ ", expected " ++ words)

/-- Reads one or more digits. -/
def digits (part words : String) : Reader (List Char) := fun cs =>
  let ds := cs.takeWhile Char.isDigit
  if ds = [] then expected part words else .ok (ds, cs.drop ds.length)

/-- Reads a certain character. -/
def mark (part words : String) (c : Char) : Reader Unit := fun cs =>
  if cs.head? = some c then .ok ((), cs.drop 1) else expected part words

/-- Refuses digits of another number than is right. -/
def checkWidth (width : Nat) (ds : List Char) (part words : String) : Except Complaint Unit :=
  if ds.length = width then .ok () else expected part words

/-- Refuses a number outside a range. -/
def checkRange (low high n : Nat) (part words : String) : Except Complaint Unit :=
  if low ≤ n ∧ n ≤ high then .ok () else expected part words

/-- The number of days of a month. -/
def monthLength (year month : Nat) : Nat :=
  if month = 2 then
    if year % 4 = 0 ∧ (year % 100 ≠ 0 ∨ year % 400 = 0) then 29 else 28
  else if month ∈ [4, 6, 9, 11] then 30
  else 31

/-- Reads the month and the day after a year and its dash, and gives the whole date. -/
def dateAfter (year : List Char) : Reader (List Char) := fun cs => do
  let (month, cs) ← digits "date" "month" cs
  let ((), cs) ← mark "date" "`-` (MM-DD)" '-' cs
  let (day, cs) ← digits "date" "day" cs
  checkWidth 4 year "date" "a four-digit year (YYYY)"
  checkWidth 2 month "date" "a two-digit month (MM)"
  checkWidth 2 day "date" "a two-digit day (DD)"
  checkRange 1 12 (digitValue month) "date" "month between 01 and 12"
  let last := monthLength (digitValue year) (digitValue month)
  checkRange 1 last (digitValue day) "date" ("day between 01 and " ++ toString last)
  return (year ++ '-' :: month ++ '-' :: day, cs)

/-- Reads digits after a certain character, if it is next. -/
def digitsAfter? (c : Char) (words : String) : Reader (Option (List Char)) := fun cs =>
  if cs.head? = some c then (digits "time" words (cs.drop 1)).map fun (ds, cs) => (some ds, cs)
  else .ok (none, cs)

/-- The digits of a fraction of a second as they are kept. -/
def fractionText (ds : List Char) : List Char :=
  let ds := ((ds.take 9).reverse.dropWhile (· = '0')).reverse
  if ds = [] then ['0'] else ds

/-- Reads a time of day. -/
def time : Reader (List Char) := fun cs => do
  let (hour, cs) ← digits "time" "hour" cs
  let ((), cs) ← mark "time" "`:` (HH:MM)" ':' cs
  let (minute, cs) ← digits "time" "minute" cs
  let (second, cs) ← digitsAfter? ':' "second" cs
  let (fraction, cs) ← if second.isSome then digitsAfter? '.' "nanosecond" cs else pure (none, cs)
  checkWidth 2 hour "time" "a two-digit hour (HH)"
  checkWidth 2 minute "time" "a two-digit minute (MM)"
  checkWidth 2 (second.getD ['0', '0']) "time" "a two-digit second (SS)"
  checkRange 0 23 (digitValue hour) "time" "hour between 00 and 23"
  checkRange 0 59 (digitValue minute) "time" "minute between 00 and 59"
  checkRange 0 60 (digitValue (second.getD [])) "time" "second between 00 and 60"
  let after (c : Char) (ds : Option (List Char)) : List Char := (ds.map (c :: ·)).getD []
  return (hour ++ ':' :: minute ++ after ':' second ++ after '.' (fraction.map fractionText), cs)

/-- Reads the distance from universal time, if anything is left. -/
def offset : Reader (List Char) := fun cs =>
  match cs with
  | [] => .ok ([], [])
  | c :: cs =>
    if c = 'Z' ∨ c = 'z' then .ok (['Z'], cs)
    else if c = '+' ∨ c = '-' then do
      let (hour, cs) ← digits "offset" "hour" cs
      let ((), cs) ← mark "offset" "`:` (HH:MM)" ':' cs
      let (minute, cs) ← digits "offset" "minute" cs
      checkWidth 2 hour "offset" "a two-digit hour (HH)"
      checkWidth 2 minute "offset" "a two-digit minute (MM)"
      checkRange 0 23 (digitValue hour) "offset" "hours between 00 and 23"
      checkRange 0 59 (digitValue minute) "offset" "minutes between 00 and 59"
      let sign := if digitValue (hour ++ minute) = 0 then '+' else c
      return (sign :: hour ++ ':' :: minute, cs)
    else expected "offset" "`Z`, +OFFSET, -OFFSET"

/-- Reads what may follow a date. -/
def afterDate (date : List Char) : Reader (List Char) := fun cs =>
  match cs with
  | [] => .ok (date, [])
  | c :: cs =>
    if c ∈ ['T', 't', ' '] then do
      let (time, cs) ← time cs
      let (offset, cs) ← offset cs
      return (date ++ 'T' :: time ++ offset, cs)
    else expected "date-time" "`T` between date and time"

/-- Reads a date, a time or both, and nothing else. -/
def read (cs : List Char) : Except Complaint (List Char) := do
  let (first, rest) ← digits "datetime" "year or hour" cs
  let (text, rest) ← match rest with
    | '-' :: rest => do
      let (date, rest) ← dateAfter first rest
      afterDate date rest
    | ':' :: _ => time cs
    | _ => expected "datetime" "`-` (YYYY-MM) or `:` (HH:MM)"
  if rest = [] then return text else .error "invalid datetime"

end Almanac.Toml.Moment
