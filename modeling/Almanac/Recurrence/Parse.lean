import Almanac.Line.Scan
import Almanac.Recurrence.Rule
import Almanac.Time.Value

/-!
Reading a recurrence rule.  The text is a list of parts `KEY=value` with semicolons between them;
empty parts are passed over, unknown keys are ignored, and of two parts with one key the later
counts.  Each part is read on its own into a `Setting`, and the rule is the default rule with the
settings applied in order.  The first part that cannot be read is the one that is reported.
-/

namespace Almanac.Rule

/-- What one part of a written rule sets. -/
inductive Setting where
  | frequency (f : Frequency)
  | ending (t : Instant)
  | byMonth (n : UInt32)
  | byDay (b : Option ByDay)
  | weekStart (d : Weekday)
  | interval (n : UInt32)
  | count (n : UInt32)
  /-- A part with an unknown key. -/
  | nothing
  deriving DecidableEq, Repr

/-- The rule with one setting changed. -/
def Setting.apply (r : Rule) : Setting → Rule
  | .frequency f => { r with frequency := f }
  | .ending t => { r with ending := some t }
  | .byMonth n => { r with byMonth := some n }
  | .byDay b => { r with byDay := b }
  | .weekStart d => { r with weekStart := d }
  | .interval n => { r with interval := n }
  | .count n => { r with count := some n }
  | .nothing => r

/-- Reads a frequency; an empty value stands for yearly. -/
def parseFrequency (value : String) (line : Nat) : Except ParseError Frequency :=
  if value = "" then .ok .yearly
  else match Frequency.ofText? value with
    | some f => .ok f
    | none => .error (.citing .invalidFrequency line value)

/-- Reads a word; blanks around it are passed over.  A complaint cites the key as written. -/
def parseWord (key value : String) (line : Nat) : Except ParseError UInt32 :=
  match Text.readUnsigned? 4294967296 (Text.trim value.toList) with
  | some n => .ok (.ofNat n)
  | none => .error ⟨.invalidRule, line, some (key ++ "='" ++ value ++ "'")⟩

/-- Reads the code of a weekday; blanks around it are passed over. -/
def parseWeekday (value : String) (line : Nat) : Except ParseError Weekday :=
  match Weekday.ofCode? (Text.trimmed value) with
  | some d => .ok d
  | none => .error (.citing .invalidWeekday line value)

/-- Cuts a text before its last two bytes, unless a character lies across the cut. -/
def cutLastTwoBytes? (text : List Char) : Option (List Char × List Char) :=
  match text.reverse with
  | a :: b :: rest =>
    if a.utf8Size = 2 then some ((b :: rest).reverse, [a])
    else if a.utf8Size = 1 ∧ b.utf8Size = 1 then some (rest.reverse, [b, a])
    else none
  | _ => none

/-- Reads the first entry of a `BYDAY` value.  One of more than two bytes is an ordinal and the code
of a weekday; the weekday is looked at first. -/
def parseFirstDay (entry : String) (rest : List Weekday) (line : Nat) : Except ParseError ByDay :=
  if entry.utf8ByteSize ≤ 2 then do
    let day ← parseWeekday entry line
    return .plain (day :: rest)
  else match cutLastTwoBytes? entry.toList with
    | none => .error (.citing .invalidWeekday line entry)
    | some (ordinal, code) => do
      let day ← parseWeekday (String.ofList code) line
      match Text.readSigned? (-128) 127 ordinal with
      | none | some 0 => .error ⟨.invalidRule, line, some ("BYDAY='" ++ entry ++ "'")⟩
      | some n => .ok (.ordinal (.ofInt n) day rest)

/-- Reads a `BYDAY` value: entries with commas between them, blanks around them passed over.  The
entries after the first are plain weekdays and are looked at before it. -/
def parseByDay (value : String) (line : Nat) : Except ParseError (Option ByDay) :=
  match ((Scan.pieces ',' value.toList).map Text.trim).filter (· ≠ []) with
  | [] => .ok none
  | first :: others => do
    let rest ← others.mapM fun entry => parseWeekday (String.ofList entry) line
    let days ← parseFirstDay (String.ofList first) rest line
    return some days

/-- The keys that mean something. -/
inductive Key where
  | freq | ending | byMonth | byDay | wkst | interval | count
  deriving DecidableEq, Repr

/-- The keys by name. -/
def Key.byName : List (String × Key) :=
  [("FREQ", .freq), ("UNTIL", .ending), ("BYMONTH", .byMonth), ("BYDAY", .byDay), ("WKST", .wkst),
   ("INTERVAL", .interval), ("COUNT", .count)]

/-- Reads the value under a key. -/
def parseSetting (key value : String) (line : Nat) : Except ParseError Setting :=
  match Text.lookUp? Key.byName key with
  | some .freq => (parseFrequency value line).map .frequency
  | some .ending => (Instant.parse value line).map .ending
  | some .byMonth => (parseWord key value line).map .byMonth
  | some .byDay => (parseByDay value line).map .byDay
  | some .wkst => (parseWeekday value line).map .weekStart
  | some .interval => (parseWord key value line).map .interval
  | some .count => (parseWord key value line).map .count
  | none => .ok .nothing

/-- Reads one part of a rule. -/
def parsePart (line : Nat) (written : List Char) : Except ParseError Setting :=
  match Scan.cutPlain? '=' written with
  | none => .error (.citing .invalidRule line (String.ofList written))
  | some (key, value) => parseSetting (String.ofList key) (String.ofList value) line

/-- Reads a rule. -/
def parse (text : String) (line : Nat) : Except ParseError Rule := do
  let settings ← ((Scan.pieces ';' text.toList).filter (· ≠ [])).mapM (parsePart line)
  return settings.foldl Setting.apply default

end Almanac.Rule
