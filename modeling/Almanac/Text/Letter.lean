/-!
Letters without regard to case.  Names and tokens of the calendar format are compared by folding the
ASCII capitals to small letters (`caseless`); every other character counts as written, so the
folding keeps the length of a word and two words agree only if they agree outside the ASCII letters.

Free text is searched for small ASCII words in its full lower-case form.  `visibleLower` is that
form as such a search can see it: besides the ASCII capitals only the Kelvin sign and the dotted
capital I have an ASCII letter in their lower case.
-/

namespace Almanac.Text

/-- The characters of a word with its ASCII capitals folded to small letters. -/
def caseless (word : String) : List Char := word.toList.map Char.toLower

/-- Two words are the same name when they differ at most in the case of ASCII letters. -/
def sameName (a b : String) : Bool := caseless a == caseless b

/-- Finds the value filed under a name in a table of names. -/
def lookUp? (table : List (String × α)) (name : String) : Option α :=
  (table.find? fun row => sameName row.1 name).map Prod.snd

/-- The lower case of one character, as far as an ASCII search can tell it from the full mapping. -/
def visibleLowerChar (c : Char) : List Char :=
  if c = '\u212a' then ['k']
  else if c = '\u0130' then ['i', '\u0307']
  else [c.toLower]

/-- The lower case of a text, as far as an ASCII search can tell it from the full mapping. -/
def visibleLower (text : List Char) : List Char := text.flatMap visibleLowerChar

/-- Whether a word occurs somewhere in a text. -/
def occursIn (word : List Char) : List Char → Bool
  | [] => word.isEmpty
  | c :: rest => word.isPrefixOf (c :: rest) || occursIn word rest

/-- Whether a word of small ASCII letters occurs in the lower case of a text. -/
def mentions (text : String) (word : String) : Bool :=
  occursIn word.toList (visibleLower text.toList)

/-! ### Laws -/

theorem sameName_iff {a b : String} : sameName a b = true ↔ caseless a = caseless b := by
  simp [sameName]

theorem sameName_refl (a : String) : sameName a a = true := by simp [sameName]

theorem sameName_comm (a b : String) : sameName a b = sameName b a := by
  simp only [sameName]
  exact BEq.comm

theorem occursIn_iff {word text : List Char} : occursIn word text = true ↔ word <:+: text := by
  induction text with
  | nil => simp [occursIn]
  | cons c rest ih => simp [occursIn, ih, List.infix_cons_iff]

end Almanac.Text
