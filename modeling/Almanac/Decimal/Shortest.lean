import Almanac.Decimal.Binary

/-!
The shortest decimal that reads back as a given binary number.

The numbers that round to `mantissa * 2 ^ exponent` form an interval, with its ends exactly if the
mantissa is even.  For one digit, two digits and so on up to seventeen, the two decimals of that
many digits next to the number are tried; the first number of digits with one of them in the
interval wins, and of two the nearer, or the larger if both are as near.  The decimal is written in
full, without an exponent and without a fraction of zeros.
-/

namespace Almanac.Binary64

/-- A positive binary number with its interval, all over one denominator. -/
structure Interval where
  /-- The number. -/
  value : Nat
  /-- The lower end. -/
  low : Nat
  /-- The upper end. -/
  high : Nat
  /-- The denominator of the three. -/
  den : Nat
  /-- Whether the ends belong to it. -/
  closed : Bool

/-- The interval of `mantissa * 2 ^ exponent`.  Below a power of two the numbers lie twice as
close. -/
def interval (mantissa : Nat) (exponent : Int) : Interval :=
  let half := if mantissa = Nat.pow 2 52 ∧ -1074 < exponent then 1 else 2
  let scale := Nat.pow 2 exponent.toNat
  ⟨4 * mantissa * scale, (4 * mantissa - half) * scale, (4 * mantissa + 2) * scale,
    4 * Nat.pow 2 (-exponent).toNat, mantissa % 2 = 0⟩

/-- Whether the decimal `digits * 10 ^ power` lies in the interval. -/
def Interval.holds (i : Interval) (digits : Nat) (power : Int) : Bool :=
  let (a, b) := ratio (digits * i.den) 1 10 (-power)
  if i.closed then i.low * b ≤ a && a ≤ i.high * b else i.low * b < a && a < i.high * b

/-- The power of ten at or below the number. -/
def Interval.magnitude (i : Interval) : Int :=
  let guess : Int := (Text.digits i.value).length - (Text.digits i.den).length
  let (a, b) := ratio i.value i.den 10 guess
  if b ≤ a then guess else guess - 1

/-- The decimal of a number of digits that lies in the interval, if there is one. -/
def Interval.decimal? (i : Interval) (count : Nat) : Option (Nat × Int) :=
  let power := i.magnitude - (count - 1 : Nat)
  let (a, b) := ratio i.value i.den 10 power
  let below := a / b
  let up := b ≤ 2 * (a % b)
  let near := if up then below + 1 else below
  let far := if up then below else below + 1
  if i.holds near power then some (near, power)
  else if i.holds far power then some (far, power)
  else none

/-- The shortest decimal in the interval; seventeen digits always suffice. -/
def Interval.shortest (i : Interval) : Nat × Int :=
  ((List.range' 1 17).findSome? i.decimal?).getD (0, 0)

/-- Drops the zeros at the end of some digits. -/
def dropZeros (ds : List Char) : List Char := (ds.reverse.dropWhile (· == '0')).reverse

/-- The decimal `digits * 10 ^ power` in full. -/
def positional (digits : Nat) (power : Int) : List Char :=
  let ds := Text.digits digits
  if 0 ≤ power then ds ++ List.replicate power.toNat '0'
  else
    let places := power.natAbs
    let ds := List.replicate (places + 1 - ds.length) '0' ++ ds
    let fraction := dropZeros (ds.drop (ds.length - places))
    ds.take (ds.length - places) ++ if fraction = [] then [] else '.' :: fraction

/-- The shortest decimal spelling of a number. -/
def text (x : Binary64) : String :=
  match x with
  | .nan => "NaN"
  | .infinite negative => if negative then "-inf" else "inf"
  | .finite negative mantissa exponent =>
    let digits :=
      if mantissa = 0 then ['0']
      else
        let (digits, power) := (interval mantissa exponent).shortest
        positional digits power
    String.ofList (if negative then '-' :: digits else digits)

end Almanac.Binary64
