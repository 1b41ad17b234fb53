import Almanac.Settings.Toml.Token

/-!
The text of a string.  Between single quotes every character stands for itself; between double
quotes a backslash begins an escape: a letter for a control character, `x`, `u` or `U` before two,
four or eight hexadecimal digits, or a quote or backslash.

Between threefold quotes a line end right after the opening is dropped, and between threefold double
quotes a backslash at the end of a line takes away the line end and the blanks after it.  Other line
ends stay as they are, with their carriage returns.
-/

namespace Almanac.Toml

/-- The characters of a string behind which `start` bytes lie. -/
structure Inside where
  /-- The number of bytes before them. -/
  start : Nat
  /-- The characters. -/
  text : List Char
  deriving DecidableEq, Repr

/-- Passes over some characters. -/
def Inside.drop (i : Inside) (count : Nat) : Inside :=
  ⟨i.start + byteCount (i.text.take count), i.text.drop count⟩

/-- Passes over the characters at the front that satisfy a condition. -/
def Inside.dropWhile (i : Inside) (p : Char → Bool) : Inside := i.drop (i.text.takeWhile p).length

/-- The number of characters of a line end at the front, zero if there is none, or the fault of a
carriage return without a line feed. -/
def newlineLength (i : Inside) : Except Fault Nat :=
  match i.text with
  | '\n' :: _ => .ok 1
  | '\r' :: '\n' :: _ => .ok 2
  | '\r' :: _ =>
    .error (.wanting "carriage return must be followed by newline" [.exactly "\n"]
      (.spot (i.start + 1)))
  | _ => .ok 0

/-- What is between the quotes of a token, or the fault that the closing quotes are missing.  A line
end right after threefold quotes is left out. -/
def between (message : String) (quote : Char) (count : Nat) (t : Token) : Except Fault Inside :=
  let quotes := List.replicate count quote
  let inside : Inside := (Inside.mk t.start t.text).drop count
  let inside := match count, inside.text with
    | 1, _ => inside
    | _, '\n' :: _ => inside.drop 1
    | _, '\r' :: '\n' :: _ => inside.drop 2
    | _, _ => inside
  if quotes.isSuffixOf inside.text then
    .ok { inside with text := inside.text.take (inside.text.length - count) }
  else .error (.wanting message [.exactly (String.singleton quote)] (.spot t.stop))

/-- Whether a character may stand in a string on one line. -/
def isVisible (c : Char) : Bool := c == '\t' || (32 ≤ c.toNat && c.toNat ≠ 127)

/-! ### Single quotes -/

/-- The text of a string between single quotes. -/
def literalText (i : Inside) : Except Fault (List Char) :=
  let fair := i.text.takeWhile isVisible
  if fair = i.text then .ok fair
  else .error (.wanting "invalid literal string" [.described "non-single-quote visible characters"]
    (.spot (i.start + byteCount fair)))

/-- The text of a string between threefold single quotes. -/
def longLiteralText (start : Nat) : List Char → Except Fault (List Char)
  | [] => .ok []
  | c :: rest =>
    if c = '\r' ∧ rest.head? ≠ some '\n' then
      .error (.wanting "carriage return must be followed by newline" [.exactly "\n"]
        (.spot (start + 1)))
    else if isVisible c ∨ c = '\n' ∨ c = '\r' then
      (longLiteralText (start + c.utf8Size) rest).map (c :: ·)
    else
      .error (.wanting "invalid multi-line literal string"
        [.described "non-single-quote characters"] (.spot start))

/-! ### Double quotes -/

/-- The value of a hexadecimal digit. -/
def hexDigit? (c : Char) : Option Nat :=
  if c.isDigit then some (c.toNat - '0'.toNat)
  else if 'a' ≤ c ∧ c ≤ 'f' then some (c.toNat - 'a'.toNat + 10)
  else if 'A' ≤ c ∧ c ≤ 'F' then some (c.toNat - 'A'.toNat + 10)
  else none

/-- The characters that single letters stand for. -/
def letterEscapes : List (Char × Char) :=
  [('b', '\x08'), ('e', '\x1b'), ('f', '\x0c'), ('n', '\n'), ('r', '\r'), ('t', '\t'),
   ('\\', '\\'), ('"', '"')]

/-- The letters before hexadecimal digits, and the numbers of digits. -/
def codeEscapes : List (Char × Nat) := [('x', 2), ('u', 4), ('U', 8)]

/-- What a fault about a backslash calls right after it. -/
def escapesWanted : List Wanted :=
  ["b", "e", "f", "n", "r", "\\", "\"", "x", "u", "U"].map .exactly

/-- Reads hexadecimal digits that stand for a character. -/
def codeEscape (count : Nat) (i : Inside) : Except Fault (Char × Inside) :=
  let digits := (i.text.take count).takeWhile fun c => (hexDigit? c).isSome
  let n := digits.foldl (fun n c => 16 * n + (hexDigit? c).getD 0) 0
  let wanted : List Wanted := [.described "unicode hexadecimal value"]
  if digits.length < count then
    .error (.wanting "too few unicode value digits" wanted (.spot (i.start + digits.length)))
  else if n.isValidChar then .ok (Char.ofNat n, i.drop count)
  else .error (.wanting "invalid value" wanted (.spot i.start))

/-- Reads what follows a backslash. -/
def escape (i : Inside) : Except Fault (Char × Inside) :=
  let refused : Except Fault (Char × Inside) :=
    .error (.wanting "missing escaped value" escapesWanted (.spot i.start))
  match i.text with
  | [] => refused
  | c :: _ =>
    match letterEscapes.lookup c, codeEscapes.lookup c with
    | some d, _ => .ok (d, i.drop 1)
    | none, some count => codeEscape count (i.drop 1)
    | none, none => refused

/-- Passes over blanks and line ends. -/
def skipSpace (fuel : Nat) (i : Inside) : Except Fault Inside :=
  match fuel with
  | 0 => .ok i
  | fuel + 1 => do
    let i := i.dropWhile isSpace
    let length ← newlineLength i
    if length = 0 then return i else skipSpace fuel (i.drop length)

/-- Passes over a line end after a backslash, with the blanks before it and all space after it. -/
def continuation (i : Inside) : Except Fault Inside := do
  let i := i.dropWhile isSpace
  let length ← newlineLength i
  if length = 0 then
    .error (.wanting "invalid multi-line basic string" [.described "newline"] (.spot i.start))
  else skipSpace (i.text.length + 1) (i.drop length)

/-- The text of a string between double quotes, which may go on over lines if it is `long`. -/
def basicText (fuel : Nat) (long : Bool) (i : Inside) : Except Fault (List Char) :=
  match fuel, i.text with
  | 0, _ | _, [] => .ok []
  | fuel + 1, c :: rest =>
    if c = '\\' then
      if long ∧ rest.head?.any (fun c => c ∈ [' ', '\t', '\r', '\n']) then do
        basicText fuel long (← continuation (i.drop 1))
      else do
        let (d, i) ← escape (i.drop 1)
        return d :: (← basicText fuel long i)
    else if isVisible c then (basicText fuel long (i.drop 1)).map (c :: ·)
    else if long ∧ (c = '\n' ∨ c = '\r') then do
      let length ← newlineLength i
      return i.text.take length ++ (← basicText fuel long (i.drop length))
    else
      let isFair (c : Char) : Bool := isVisible c || (long && (c == '\n' || c == '\r'))
      let place : Stretch := ⟨i.start, (i.dropWhile fun c => !isFair c).start⟩
      .error (if long then
          .wanting "invalid multi-line basic string" [.exactly "\\", .described "characters"] place
        else
          .wanting "invalid basic string"
            [.described "non-double-quote visible characters", .exactly "\\"] place)

/-! ### Strings -/

/-- The text of a string. -/
def quotedText (t : Token) : Except Fault (List Char) :=
  match t.kind with
  | .literal => do literalText (← between "invalid literal string" '\'' 1 t)
  | .longLiteral => do
    let i ← between "invalid multi-line literal string" '\'' 3 t
    longLiteralText i.start i.text
  | .basic => do
    let i ← between "invalid basic string" '"' 1 t
    basicText (i.text.length + 1) false i
  | .longBasic => do
    let i ← between "invalid multi-line basic string" '"' 3 t
    basicText (i.text.length + 1) true i
  | _ => .ok t.text

/-! ### Parts of names -/

/-- Whether a character may stand in a name without quotes. -/
def isNameChar (c : Char) : Bool := c.isAlphanum || c == '-' || c == '_'

/-- The text of one part of a name. -/
def partText (t : Token) : Except Fault (List Char) :=
  let wanted : List Wanted :=
    [.described "letters", .described "numbers", .exactly "-", .exactly "_"]
  let long (message : String) : Except Fault (List Char) :=
    .error (.wanting message [.described "basic string", .described "literal string"] t.place)
  match t.kind, t.text with
  | .longLiteral, _ => long "keys cannot be multi-line literal strings"
  | .longBasic, _ => long "keys cannot be multi-line basic strings"
  | .literal, _ | .basic, _ => quotedText t
  | _, [] => .error (.wanting "unquoted keys cannot be empty" wanted t.front)
  | _, text =>
    let fair := text.takeWhile isNameChar
    match text.drop fair.length with
    | [] => .ok text
    | c :: _ =>
      let start := t.start + byteCount fair
      .error (.wanting "invalid unquoted key" wanted ⟨start, start + c.utf8Size⟩)

end Almanac.Toml
