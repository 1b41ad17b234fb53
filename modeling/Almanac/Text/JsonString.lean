/-!
Strings as they are written in JSON.  A quote and a backslash are escaped, and so is every control
character, by its letter if it has one and by its code in four hexadecimal digits otherwise.
-/

namespace Almanac.JsonString

/-- The written form of one character. -/
def encodeChar (c : Char) : List Char :=
  match c with
  | '"' => ['\\', '"']
  | '\\' => ['\\', '\\']
  | '\n' => ['\\', 'n']
  | '\r' => ['\\', 'r']
  | '\t' => ['\\', 't']
  | '\x08' => ['\\', 'b']
  | '\x0c' => ['\\', 'f']
  | c =>
    if c.toNat < 32 then
      ['\\', 'u', '0', '0', Nat.digitChar (c.toNat / 16), Nat.digitChar (c.toNat % 16)]
    else [c]

/-- The written form of a string, with its quotes. -/
def encode (text : String) : String :=
  String.ofList ('"' :: text.toList.flatMap encodeChar ++ ['"'])

end Almanac.JsonString
