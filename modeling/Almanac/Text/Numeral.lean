/-!
Decimal numerals.  A number is written with its fewest digits (`digits`) or padded with zeros to a
width (`padded`).  A numeral is read back from one or more ASCII digits, leading zeros allowed, with
an optional sign where the reader admits one, and is refused when its value lies outside the
reader's range.
-/

namespace Almanac.Text

/-- The decimal digits of a number, without leading zeros. -/
def digits (n : Nat) : List Char := Nat.toDigits 10 n

/-- The decimal digits of a number, with zeros in front up to a width. -/
def padded (width n : Nat) : List Char :=
  List.replicate (width - (digits n).length) '0' ++ digits n

/-- An integer with a minus sign if it is negative. -/
def signedDigits : Int → List Char
  | .ofNat n => digits n
  | .negSucc n => '-' :: digits (n + 1)

/-- The value of a string of digits. -/
def digitValue (cs : List Char) : Nat := Nat.ofDigitChars 10 cs 0

/-- Reads one or more digits and nothing else. -/
def readDigits? (cs : List Char) : Option Nat :=
  if cs ≠ [] ∧ cs.all Char.isDigit then some (digitValue cs) else none

/-- Reads an unsigned numeral, a plus sign allowed, below a limit. -/
def readUnsigned? (limit : Nat) (cs : List Char) : Option Nat :=
  let body := match cs with
    | '+' :: rest => rest
    | rest => rest
  (readDigits? body).filter (· < limit)

/-- Reads a numeral with an optional sign, from `lo` to `hi`. -/
def readSigned? (lo hi : Int) (cs : List Char) : Option Int :=
  let value := match cs with
    | '-' :: rest => (readDigits? rest).map fun n => -(n : Int)
    | '+' :: rest => (readDigits? rest).map Int.ofNat
    | rest => (readDigits? rest).map Int.ofNat
  value.filter fun n => lo ≤ n && n ≤ hi

/-! ### Laws -/

theorem digits_ne_nil (n : Nat) : digits n ≠ [] :=
  List.ne_nil_of_length_pos Nat.length_toDigits_pos

theorem isDigit_of_mem_digits {n : Nat} {c : Char} (h : c ∈ digits n) : c.isDigit = true :=
  Nat.isDigit_of_mem_toDigits (by decide) (by decide) h

@[simp] theorem digitValue_digits (n : Nat) : digitValue (digits n) = n :=
  Nat.ofDigitChars_toDigits (by decide) (by decide)

/-- A number reads back from its digits. -/
@[simp] theorem readDigits?_digits (n : Nat) : readDigits? (digits n) = some n := by
  simpa [readDigits?, digits_ne_nil] using fun c h => isDigit_of_mem_digits h

end Almanac.Text
