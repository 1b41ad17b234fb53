/-!
The escaping of TEXT values.  A backslash, a comma and a semicolon are written with a backslash in
front, a line feed as `\n`.  Reading undoes this and is lenient: `\N` is a line feed too, and a
backslash before any other character, or at the end, stands for itself.
-/

namespace Almanac.Escape

/-- The written form of one character. -/
def encodeChar (c : Char) : List Char :=
  if c = '\\' ∨ c = ',' ∨ c = ';' then ['\\', c]
  else if c = '\n' then ['\\', 'n']
  else [c]

/-- The written form of a text. -/
def encode (text : List Char) : List Char := text.flatMap encodeChar

/-- What a backslash and the character after it stand for. -/
def decodePair (c : Char) : List Char :=
  if c = 'n' ∨ c = 'N' then ['\n']
  else if c = ',' ∨ c = ';' ∨ c = '\\' then [c]
  else ['\\', c]

/-- The text that a written form stands for. -/
def decode : List Char → List Char
  | [] => []
  | ['\\'] => ['\\']
  | '\\' :: c :: rest => decodePair c ++ decode rest
  | c :: rest => c :: decode rest

/-- The written form of a string. -/
def encodeText (text : String) : String := String.ofList (encode text.toList)

/-- The string that a written form stands for. -/
def decodeText (text : String) : String := String.ofList (decode text.toList)

end Almanac.Escape
