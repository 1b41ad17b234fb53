import Almanac.Text.Blank
import Almanac.Text.Letter

/-!
Links in free text.  A link begins with `http://` or `https://` and goes on to the next blank, angle
bracket, quote, or closing parenthesis or bracket; at least one character must come before that.
Links do not overlap, and the full stops, commas and semicolons at the end of one are left out.

A link belongs to a conference if the name of a provider occurs in its lower case.
-/

namespace Almanac.Link

/-- Whether a character ends a link. -/
def ends (c : Char) : Bool := Text.isBlank c || c ∈ ['<', '>', '"', '\'', ')', ']']

/-- The length of the scheme at the front of a text. -/
def schemeLength? (text : List Char) : Option Nat :=
  if "https://".toList.isPrefixOf text then some 8
  else if "http://".toList.isPrefixOf text then some 7
  else none

/-- The length of the link at the front of a text. -/
def length? (text : List Char) : Option Nat :=
  (schemeLength? text).bind fun scheme =>
    let body := (text.drop scheme).takeWhile fun c => !ends c
    if body = [] then none else some (scheme + body.length)

/-- The links of a text of which the first `skip` characters are passed over. -/
def scan (skip : Nat) : List Char → List (List Char)
  | [] => []
  | c :: rest =>
    match skip with
    | skip + 1 => scan skip rest
    | 0 =>
      match length? (c :: rest) with
      | some n => (c :: rest).take n :: scan (n - 1) rest
      | none => scan 0 rest

/-- Leaves out the punctuation at the end. -/
def trimPunctuation (link : List Char) : List Char :=
  (link.reverse.dropWhile fun c => c == '.' || c == ',' || c == ';').reverse

/-- The links of a text in order. -/
def all (text : String) : List String :=
  (scan 0 text.toList).map fun link => String.ofList (trimPunctuation link)

/-- The names of the conference providers. -/
def providers : List String :=
  ["zoom", "meet", "teams", "skype", "webex", "whereby", "gotomeeting", "jitsi", "bluejeans",
   "chime"]

/-- Whether a link belongs to a conference. -/
def isConference (link : String) : Bool := providers.any (Text.mentions link)

/-- The first link of a text that belongs to a conference. -/
def conference? (text : String) : Option String := (all text).find? isConference

end Almanac.Link
