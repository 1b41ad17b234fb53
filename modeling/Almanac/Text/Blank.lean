/-!
White space.  A character is blank when it has the Unicode property White_Space, which holds of
twenty-five characters in ten ranges.  `trim` drops the blanks at both ends of a text.
-/

namespace Almanac.Text

/-- The characters with the property White_Space, as inclusive ranges of code points. -/
def blankRanges : List (Nat × Nat) :=
  [(0x0009, 0x000D), (0x0020, 0x0020), (0x0085, 0x0085), (0x00A0, 0x00A0), (0x1680, 0x1680),
   (0x2000, 0x200A), (0x2028, 0x2029), (0x202F, 0x202F), (0x205F, 0x205F), (0x3000, 0x3000)]

/-- Whether a character is white space. -/
def isBlank (c : Char) : Bool :=
  blankRanges.any fun range => range.1 ≤ c.toNat && c.toNat ≤ range.2

/-- Drops the blanks at the front. -/
def trimStart (text : List Char) : List Char := text.dropWhile isBlank

/-- Drops the blanks at the end. -/
def trimEnd (text : List Char) : List Char := (text.reverse.dropWhile isBlank).reverse

/-- Drops the blanks at both ends. -/
def trim (text : List Char) : List Char := trimEnd (trimStart text)

/-- Drops the blanks at both ends of a string. -/
def trimmed (text : String) : String := String.ofList (trim text.toList)

end Almanac.Text
