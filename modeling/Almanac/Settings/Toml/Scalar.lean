import Almanac.Settings.Toml.Moment
import Almanac.Settings.Toml.Quoted

/-!
Single values.  A value in quotes is a string; what it is without quotes shows in its first
characters: a truth value, an integer in one of four bases, a binary number, or a date or time.

Numbers are not worked out here.  Their digits are kept with their sign and without their
underscores, and it is only made sure that they are written as a number of their kind is; whether
they are in range is found out when the file has been read to its end.
-/

namespace Almanac.Toml

/-- A single value. -/
inductive Scalar where
  | text (value : List Char)
  /-- An integer by its base and its digits, with its sign. -/
  | integer (base : Nat) (digits : List Char)
  /-- A binary number by its spelling. -/
  | float (spelling : List Char)
  | truth (value : Bool)
  /-- A date or a time in its one form. -/
  | moment (text : List Char)
  deriving DecidableEq, Repr

/-! ### Words -/

/-- The spot before the first character. -/
def Inside.front (i : Inside) : Stretch := .spot i.start

/-- The stretch of a number of characters, all of one byte, from the first. -/
def Inside.first (i : Inside) (count : Nat) : Stretch := ⟨i.start, i.start + count⟩

/-- The whole stretch. -/
def Inside.place (i : Inside) : Stretch := ⟨i.start, i.start + byteCount i.text⟩

/-- Refuses a word that nothing without quotes can be. -/
def unquoted (word : Inside) : Except Fault Scalar :=
  let quotes := ["'''", "\"\"\"", "'", "\""]
  match quotes.find? fun quote => quote.toList.isSuffixOf word.text with
  | some quote => .error (.wanting "missing opening quote" [.exactly quote] word.front)
  | none =>
    .error (.wanting "string values must be quoted" [.described "literal string"] word.place)

/-- Reads a word that can only be a certain one. -/
def onlyWord (word : Inside) (only message : String) (value : Scalar) : Except Fault Scalar :=
  if word.text = only.toList then .ok value
  else if ' ' ∈ word.text then unquoted word
  else .error (.wanting message [.exactly only] word.place)

/-! ### Underscores -/

/-- The first underscore among some characters that does not stand between digits, by the number of
characters before it; `before` is the character before the first. -/
def looseUnderscore? (isDigit : Char → Bool) (before : Option Char) : List Char → Option Nat
  | [] => none
  | c :: rest =>
    if c = '_' ∧ ¬(before.any isDigit ∧ rest.head?.any isDigit) then some 0
    else (looseUnderscore? isDigit (some c) rest).map (· + 1)

/-- The underscore to complain about: one at the front, or else one at the end, or else the first
that does not stand between digits. -/
def wrongUnderscore? (isDigit : Char → Bool) (digits : List Char) : Option Nat :=
  if digits.head? = some '_' then some 0
  else if digits.getLast? = some '_' then some (digits.length - 1)
  else looseUnderscore? isDigit none digits

/-- Some digits without their underscores, which must stand between digits. -/
def withoutUnderscores (isDigit : Char → Bool) (i : Inside) : Except Fault (List Char) :=
  match wrongUnderscore? isDigit i.text with
  | some n => .error (.wanting "`_` may only go between digits" [] ((i.drop n).first 1))
  | none => .ok (i.text.filter (· ≠ '_'))

/-- An integer whose digits have been looked at. -/
def integerOf (base : Nat) (i : Inside) : Except Fault Scalar :=
  (withoutUnderscores (fun c => (hexDigit? c).isSome) i).map (.integer base)

/-! ### Numbers -/

/-- Whether a character may stand among the digits of a number. -/
def isDigitChar (c : Char) : Bool := c.isDigit || c == '_'

/-- The fault of a zero that should not be there. -/
def leadingZero (i : Inside) : Fault := .wanting "unexpected leading zero" [] (i.first 1)

/-- Passes over digits and underscores, at least one digit.  If `whole` is set, a zero must be the
only digit. -/
def skipDigits (whole : Bool) (message : String) (i : Inside) : Except Fault Inside :=
  let count := ((i.text.takeWhile isDigitChar).filter Char.isDigit).length
  if count = 0 then .error (.wanting message [.described "digits"] i.front)
  else if whole ∧ 2 ≤ count ∧ i.text.head? = some '0' then .error (leadingZero i)
  else .ok (i.dropWhile isDigitChar)

/-- Passes over the fraction of a binary number, if it has one. -/
def skipFraction (i : Inside) : Except Fault Inside :=
  if i.text.head? = some '.' then skipDigits false "invalid fraction" (i.drop 1) else .ok i

/-- Passes over the exponent of a binary number, if it has one. -/
def skipExponent (i : Inside) : Except Fault Inside :=
  if i.text.head?.any fun c => c = 'e' ∨ c = 'E' then
    let i := i.drop 1
    let i := if i.text.head?.any fun c => c = '+' ∨ c = '-' then i.drop 1 else i
    skipDigits false "invalid exponent" i
  else .ok i

/-- Reads a binary number: `word` with its sign, `i` without. -/
def floatOf (word i : Inside) : Except Fault Scalar := do
  let rest ← skipExponent (← skipFraction (← skipDigits true "invalid mantissa" i))
  if rest.text ≠ [] then .error (.wanting "invalid float" [] rest.place)
  else (withoutUnderscores Char.isDigit word).map .float

/-- Reads an integer in base ten: `word` with its sign, `i` without. -/
def decimalOf (word i : Inside) : Except Fault Scalar :=
  if i.text.head? = some '0' ∧ i.text ≠ ['0'] then .error (leadingZero i) else integerOf 10 word

/-- Reads a number or a date: `word` with its sign, `i` without. -/
def numberOf (word i : Inside) : Except Fault Scalar :=
  let rest := i.text.dropWhile Char.isDigit
  match rest with
  | [] => decimalOf word i
  | c :: _ =>
    if c = '-' ∨ c = ':' then
      match Moment.read word.text with
      | .ok text => .ok (.moment text)
      | .error complaint => .error (.plain complaint word.place)
    else if ' ' ∈ rest then unquoted word
    else if rest.any fun c => c ∈ ['.', 'e', 'E'] then floatOf word i
    else if c = '_' then decimalOf word i
    else unquoted word

/-! ### Bases -/

/-- A base other than ten. -/
structure Radix where
  /-- The letter after the zero. -/
  letter : Char
  /-- The base. -/
  base : Nat
  /-- The name of a number in this base. -/
  adjective : String

/-- The bases other than ten. -/
def radixes : List Radix := [⟨'x', 16, "hexadecimal"⟩, ⟨'o', 8, "octal"⟩, ⟨'b', 2, "binary"⟩]

/-- Reads an integer in another base after its letter. -/
def radixDigits (r : Radix) (i : Inside) : Except Fault Scalar :=
  if i.text.head?.any fun c => c = '+' ∨ c = '-' then
    .error (.wanting "unexpected sign" [] (i.first 1))
  else
    let isDigit (c : Char) : Bool := (hexDigit? c).any (· < r.base) || c == '_'
    let rest := i.dropWhile isDigit
    if rest.text = [] then integerOf r.base i
    else .error (.plain ("invalid " ++ r.adjective ++ " number") rest.front)

/-- Reads what begins with a zero: `word` with its sign, `i` without. -/
def zeroOf (word i : Inside) : Except Fault Scalar :=
  let signed : Bool := word ≠ i
  let sign : Fault := .wanting "integers with a radix cannot be signed" [] (word.first 1)
  match i.text with
  | _ :: c :: _ =>
    match radixes.find? fun r => r.letter = c.toLower with
    | some r =>
      if signed then .error sign
      else if c ≠ r.letter then
        .error (.wanting "radix must be lowercase" [.exactly (String.ofList ['0', r.letter])]
          (i.first 2))
      else radixDigits r (i.drop 2)
    | none =>
      if c.toLower = 'd' then
        .error (if signed then sign
          else .wanting "redundant integer number prefix" [] (i.first 2))
      else numberOf word i
  | _ => integerOf 10 word

/-! ### Values -/

/-- Reads what follows a sign: `word` with the sign, `i` without. -/
def signedOf (word i : Inside) : Except Fault Scalar :=
  let only (text : String) : Except Fault Scalar :=
    if i.text = text.toList then .ok (.float word.text)
    else .error (.wanting "invalid float" [.exactly text] i.place)
  match i.text with
  | [] => unquoted word
  | c :: _ =>
    if c = '+' ∨ c = '-' then .error (.wanting "redundant numeric sign" [] (i.first 1))
    else if c = '0' then zeroOf word i
    else if isDigitChar c then numberOf word i
    else if c = '.' then floatOf word i
    else if c = 'i' ∨ c = 'I' then only "inf"
    else if c = 'n' ∨ c = 'N' then only "nan"
    else unquoted word

/-- Reads a value without quotes. -/
def wordOf (word : Inside) : Except Fault Scalar :=
  match word.text with
  | [] => unquoted word
  | c :: _ =>
    if c = '+' ∨ c = '-' then signedOf word (word.drop 1)
    else if c = '0' then zeroOf word word
    else if isDigitChar c then numberOf word word
    else if c = '.' then floatOf word word
    else if c = 't' ∨ c = 'T' then onlyWord word "true" "invalid boolean" (.truth true)
    else if c = 'f' ∨ c = 'F' then onlyWord word "false" "invalid boolean" (.truth false)
    else if c = 'i' ∨ c = 'I' then onlyWord word "inf" "invalid float" (.float word.text)
    else if c = 'n' ∨ c = 'N' then onlyWord word "nan" "invalid float" (.float word.text)
    else unquoted word

/-- Reads a single value. -/
def scalarOf (t : Token) : Except Fault Scalar :=
  if t.kind = .word then wordOf ⟨t.start, t.text⟩ else (quotedText t).map .text

end Almanac.Toml
