import Almanac.Settings.Toml.Fault

/-!
The tokens of a configuration file: single marks, runs of blanks, comments, line ends, strings in
their four kinds of quotes, and words, which are everything else.

Nothing is refused here.  A string that is not closed ends with its line, or with the text if it may
go on over lines; a word may hold anything.  So the tokens put together are the text again
(`texts_tokensFrom`), and whoever reads them can tell what is wrong and where.
-/

namespace Almanac.Toml

/-- The kinds of tokens. -/
inductive Kind where
  | dot | equals | comma
  | openBracket | closeBracket | openBrace | closeBrace
  | blank | comment | newline
  /-- A string between single quotes. -/
  | literal
  /-- A string between threefold single quotes. -/
  | longLiteral
  /-- A string between double quotes. -/
  | basic
  /-- A string between threefold double quotes. -/
  | longBasic
  | word
  /-- The end of the text. -/
  | finish
  deriving DecidableEq, Repr

/-- A token with its place. -/
structure Token where
  /-- What it is. -/
  kind : Kind
  /-- The number of bytes before it. -/
  start : Nat
  /-- Its characters. -/
  text : List Char
  deriving DecidableEq, Repr

namespace Token

/-- The number of bytes up to its end. -/
def stop (t : Token) : Nat := t.start + byteCount t.text

/-- Where it lies. -/
def place (t : Token) : Stretch := ⟨t.start, t.stop⟩

/-- The spot before it. -/
def front (t : Token) : Stretch := .spot t.start

/-- A word without characters, in the place of one that is missing. -/
def missing (start : Nat) : Token := ⟨.word, start, []⟩

end Token

/-! ### Where a token ends -/

/-- Whether a character belongs to a word. -/
def isWordChar (c : Char) : Bool :=
  c ∉ ['.', '=', ',', '[', ']', '\x7b', '\x7d', ' ', '\t', '#', '\r', '\n']

/-- Whether a character is a blank within a line. -/
def isSpace (c : Char) : Bool := c == ' ' || c == '\t'

/-- Whether a backslash and the character after it count as a pair, so that the latter closes
nothing. -/
def isPair (c d : Char) : Bool := c == '\\' && (d == '\\' || d == '"')

/-- How many characters there are up to and with a closing quote, or up to the end of the line. -/
def shortLength (quote : Char) (escapes : Bool) : List Char → Nat
  | [] => 0
  | [c] => if c = '\n' then 0 else 1
  | c :: d :: rest =>
    if c = '\n' then 0
    else if c = quote then 1
    else if escapes && isPair c d then shortLength quote escapes rest + 2
    else shortLength quote escapes (d :: rest) + 1

/-- How many quotes stand in front of some characters, up to a number. -/
def quotesAhead (limit : Nat) (quote : Char) (cs : List Char) : Nat :=
  ((cs.take limit).takeWhile (· = quote)).length

/-- How many characters there are up to and with closing quotes, which are three to five, or up to
the end of the text. -/
def longLength (quote : Char) (escapes : Bool) : List Char → Nat
  | [] => 0
  | [_] => 1
  | c :: d :: rest =>
    if quotesAhead 3 quote (c :: d :: rest) = 3 then quotesAhead 5 quote (c :: d :: rest)
    else if escapes && isPair c d then longLength quote escapes rest + 2
    else longLength quote escapes (d :: rest) + 1

/-- The kind of the token that begins with a character, and how many of the characters after it
belong to it. -/
def tokenAhead (c : Char) (rest : List Char) : Kind × Nat :=
  let quoted (short long : Kind) (escapes : Bool) : Kind × Nat :=
    if quotesAhead 2 c rest = 2 then (long, longLength c escapes (rest.drop 2) + 2)
    else (short, shortLength c escapes rest)
  match c with
  | '.' => (.dot, 0)
  | '=' => (.equals, 0)
  | ',' => (.comma, 0)
  | '[' => (.openBracket, 0)
  | ']' => (.closeBracket, 0)
  | '\x7b' => (.openBrace, 0)
  | '\x7d' => (.closeBrace, 0)
  | '#' => (.comment, (rest.takeWhile fun c => c != '\r' && c != '\n').length)
  | '\n' => (.newline, 0)
  | '\r' => (.newline, if rest.head? = some '\n' then 1 else 0)
  | '\'' => quoted .literal .longLiteral false
  | '"' => quoted .basic .longBasic true
  | c =>
    if isSpace c then (.blank, (rest.takeWhile isSpace).length)
    else (.word, (rest.takeWhile isWordChar).length)

/-- The tokens of a text that stands after a number of bytes.  The first `skip` characters belong to
a token that has been cut already. -/
def tokensFrom (start skip : Nat) : List Char → List Token
  | [] => []
  | c :: rest =>
    match skip with
    | skip + 1 => tokensFrom (start + c.utf8Size) skip rest
    | 0 =>
      let (kind, length) := tokenAhead c rest
      ⟨kind, start, c :: rest.take length⟩ :: tokensFrom (start + c.utf8Size) length rest

/-- The mark of the byte order, which says nothing at the front of a text. -/
def orderMark : Char := '\ufeff'

/-- The tokens of a text. -/
def tokens (text : List Char) : List Token :=
  match text with
  | c :: rest => if c = orderMark then tokensFrom c.utf8Size 0 rest else tokensFrom 0 0 text
  | [] => []

/-! ### Laws -/

/-- The tokens put together are the text. -/
theorem texts_tokensFrom (start skip : Nat) (text : List Char) :
    (tokensFrom start skip text).flatMap Token.text = text.drop skip := by
  induction text generalizing start skip with
  | nil => simp [tokensFrom]
  | cons c rest ih =>
    cases skip with
    | zero => simp [tokensFrom, ih]
    | succ skip => simp [tokensFrom, ih]

end Almanac.Toml
