import Almanac.Text.Numeral
import Almanac.Time.Delta

/-!
The written form of lengths of time, such as `P1W`, `-PT15M` or `P1DT2H`.

Writing drops the fraction of a second, uses weeks when nothing but weeks is left, and otherwise
splits the seconds into days, hours, minutes and seconds, leaving out those that are zero.

Reading walks over the characters with a small state: the number being read, whether the `T` has
been seen, and what has been counted so far.  Weeks and days may stand in any order and any number
before the `T`, and hours, minutes and seconds after it.  A number that does not fit into 64 bits, a
part that is too long and a sum that becomes too long are refused where they come up.
-/

namespace Almanac.Delta

/-- A count with the letter of its unit, or nothing if the count is zero. -/
def component (count : Nat) (unit : Char) : List Char :=
  if count = 0 then [] else Text.digits count ++ [unit]

/-- The written form of a positive number of seconds that are not whole weeks. -/
def mixedText (seconds : Nat) : List Char :=
  let time := component (seconds % 86400 / 3600) 'H' ++ component (seconds % 3600 / 60) 'M'
    ++ component (seconds % 60) 'S'
  component (seconds / 86400) 'D' ++ if time = [] then [] else 'T' :: time

/-- The written form of a length of time. -/
def text (d : Delta) : List Char :=
  let seconds := d.wholeSeconds.natAbs
  let sign := if d.nanos < 0 then ['-'] else []
  if seconds = 0 then ['P', 'T', '0', 'S']
  else if seconds % 604800 = 0 then sign ++ 'P' :: Text.digits (seconds / 604800) ++ ['W']
  else sign ++ 'P' :: mixedText seconds

/-- The seconds in one unit, before or after the `T`. -/
def unitSeconds? (inTime : Bool) (c : Char) : Option Nat :=
  match inTime, c with
  | false, 'W' => some 604800
  | false, 'D' => some 86400
  | true, 'H' => some 3600
  | true, 'M' => some 60
  | true, 'S' => some 1
  | _, _ => none

/-- The greatest number that a unit can be counted with. -/
def greatestCount : Nat := 9223372036854775807

/-- What has been read after the `P`. -/
structure Scan where
  /-- Length of the parts read so far. -/
  total : Delta
  /-- Value of the digits that wait for their unit. -/
  pending : Option Nat
  /-- Whether the `T` has been read. -/
  inTime : Bool
  /-- Whether a part has been read. -/
  seen : Bool
  /-- Whether a part has been read since the `T`. -/
  seenTimed : Bool
  deriving DecidableEq, Repr

/-- Nothing read yet. -/
def Scan.start : Scan := ⟨zero, none, false, false, false⟩

/-- Adds a part of so many seconds. -/
def Scan.add? (s : Scan) (seconds : Nat) : Option Scan := do
  let part ← ofSeconds? seconds
  let total ← s.total.plus? part
  some { s with total, pending := none, seen := true, seenTimed := s.seenTimed || s.inTime }

/-- Reads one more character. -/
def Scan.step (s : Scan) (c : Char) : Option Scan :=
  if c.isDigit then
    let n := 10 * s.pending.getD 0 + (c.toNat - '0'.toNat)
    if n ≤ greatestCount then some { s with pending := some n } else none
  else if c = 'T' then
    if s.inTime ∨ s.pending.isSome then none else some { s with inTime := true }
  else do
    let n ← s.pending
    let unit ← unitSeconds? s.inTime c
    s.add? (n * unit)

/-- The length read, if nothing waits for a unit, there is a part, and there is one after the `T` if
that has been read. -/
def Scan.finish? (s : Scan) : Option Delta :=
  if s.pending.isSome ∨ !s.seen ∨ s.inTime ∧ !s.seenTimed then none else some s.total

/-- The opposite length. -/
def negate (d : Delta) : Delta :=
  ⟨-d.nanos, by have := d.hi; omega, by have := d.lo; omega⟩

/-- Reads what stands after the sign. -/
def ofUnsignedText? : List Char → Option Delta
  | 'P' :: rest => (rest.foldlM Scan.step Scan.start).bind Scan.finish?
  | _ => none

/-- Reads a written length of time. -/
def ofText? : List Char → Option Delta
  | '-' :: rest => (ofUnsignedText? rest).map negate
  | '+' :: rest => ofUnsignedText? rest
  | rest => ofUnsignedText? rest

end Almanac.Delta
