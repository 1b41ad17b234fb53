import Almanac.Text.Letter
import Almanac.Text.Numeral

/-!
Binary numbers of 64 bits and their decimal spelling.

A finite number is `mantissa * 2 ^ exponent` with a mantissa of at most 53 bits and an exponent of
at least -1074.  `nearest` rounds a positive fraction to such a number, a tie to the even mantissa;
`ofText?` reads a decimal numeral exactly and rounds once.
-/

namespace Almanac

/-- A binary floating-point number of 64 bits. -/
inductive Binary64 where
  /-- No number. -/
  | nan
  /-- Larger in size than every finite number. -/
  | infinite (negative : Bool)
  /-- `mantissa * 2 ^ exponent` with a sign, which zero has too. -/
  | finite (negative : Bool) (mantissa : Nat) (exponent : Int)
  deriving DecidableEq, Repr

namespace Binary64

/-- Numerator and denominator of a positive fraction over a power of a base. -/
def ratio (num den base : Nat) (power : Int) : Nat × Nat :=
  if 0 ≤ power then (num, den * base.pow power.toNat) else (num * base.pow power.natAbs, den)

/-- The integer nearest to a fraction, the even one of two. -/
def roundEven (num den : Nat) : Nat :=
  let q := num / den
  let twice := 2 * (num % den)
  if twice < den ∨ (twice = den ∧ q % 2 = 0) then q else q + 1

/-- The exponent at which a positive fraction has a mantissa of 53 bits, or the least exponent. -/
def exponentOf (num den : Nat) : Int :=
  let low : Int := (num.log2 : Int) - den.log2 - 53
  let (a, b) := ratio num den 2 low
  max (if a / b < Nat.pow 2 53 then low else low + 1) (-1074)

/-- The number nearest to a positive fraction, with a sign. -/
def nearest (negative : Bool) (num den : Nat) : Binary64 :=
  let exponent := exponentOf num den
  let (a, b) := ratio num den 2 exponent
  let mantissa := roundEven a b
  let (mantissa, exponent) :=
    if mantissa = Nat.pow 2 53 then (Nat.pow 2 52, exponent + 1) else (mantissa, exponent)
  if 971 < exponent then .infinite negative else .finite negative mantissa exponent

/-- The number nearest to `digits * 10 ^ power`.  Far outside the range the power is not formed. -/
def ofDecimal (negative : Bool) (digits : Nat) (power : Int) : Binary64 :=
  let size : Int := (Text.digits digits).length + power
  if digits = 0 ∨ size < -330 then .finite negative 0 (-1074)
  else if 310 < size then .infinite negative
  else
    let (num, den) := ratio digits 1 10 (-power)
    nearest negative num den

/-- Reads the exponent of a numeral, if it has one; nothing may follow. -/
def exponent? : List Char → Option Int
  | [] => some 0
  | c :: rest =>
    if c = 'e' ∨ c = 'E' then
      match rest with
      | '-' :: ds => (Text.readDigits? ds).map fun n => -(n : Int)
      | '+' :: ds => (Text.readDigits? ds).map Int.ofNat
      | ds => (Text.readDigits? ds).map Int.ofNat
    else none

/-- Reads an unsigned numeral: digits with at most one point among them, and an exponent. -/
def unsigned? (negative : Bool) (cs : List Char) : Option Binary64 := do
  let whole := cs.takeWhile Char.isDigit
  let rest := cs.dropWhile Char.isDigit
  let (fraction, rest) := match rest with
    | '.' :: rest => (rest.takeWhile Char.isDigit, rest.dropWhile Char.isDigit)
    | rest => ([], rest)
  guard (whole ++ fraction ≠ [])
  let exponent ← exponent? rest
  return ofDecimal negative (Text.digitValue (whole ++ fraction)) (exponent - fraction.length)

/-- Reads a numeral or one of the words for what is no finite number. -/
def ofText? (text : String) : Option Binary64 :=
  let (negative, cs) := match text.toList with
    | '-' :: rest => (true, rest)
    | '+' :: rest => (false, rest)
    | rest => (false, rest)
  let word := cs.map Char.toLower
  if word = ['i', 'n', 'f'] ∨ word = "infinity".toList then some (.infinite negative)
  else if word = ['n', 'a', 'n'] then some .nan
  else unsigned? negative cs

end Binary64

end Almanac
