import Almanac.Time.ExtendedForm

/-!
The command line.  Three commands are understood:

    inspect FILE
    slots FILE [--until TIME] [--json]
    new --summary TEXT --start TIME --end TIME [--uid TEXT]

Each takes `--log FILTER` too, before or after its name.  The value of an option follows it, or
stands after an equals sign; a word that begins with a dash is no value.  No option may be given
twice, and after `--` every word is an operand.
-/

namespace Almanac

/-- What the program is asked to do. -/
inductive Command where
  /-- Tell what is in a calendar file. -/
  | inspect (file : String)
  /-- List the occurrences of the events of a calendar file. -/
  | slots (file : String) (bound : Option Instant) (json : Bool)
  /-- Write a new calendar with one event. -/
  | new (summary : String) (start finish : Instant) (uid : Option String)
  /-- Tell which version the program has. -/
  | version
  /-- Tell how the program is used. -/
  | help
  deriving DecidableEq, Repr

namespace Command

/-- Words of the command line sorted into options and operands. -/
structure Words where
  /-- The options with a value, by name. -/
  values : List (String × String)
  /-- The options without a value, by name. -/
  flags : List String
  /-- The other words. -/
  operands : List String
  deriving DecidableEq, Repr

/-- The words with one more option that has a value. -/
def Words.withValue (words : Words) (name value : String) : Words :=
  { words with values := words.values ++ [(name, value)] }

/-- Whether an option has been given. -/
def Words.mentions (words : Words) (name : String) : Bool :=
  (words.values.lookup name).isSome || words.flags.contains name

/-- Whether a word is an option and no operand. -/
def isOption (word : String) : Bool := word.startsWith "-" && word ≠ "-"

/-- The name and the attached value of an option with two dashes. -/
def longOption (word : String) : String × Option String :=
  match (word.toList.drop 2).span (· ≠ '=') with
  | (name, '=' :: value) => (String.ofList name, some (String.ofList value))
  | (name, _) => (String.ofList name, none)

/-- Sorts words, given the options with and without a value, when the option `pending`, if there is
one, still waits for its value.  Nothing comes of an unknown option, of one that is given twice and
of one that lacks its value. -/
def sort? (valued plain : List String) (pending : Option String) (words : Words) :
    List String → Option Words
  | [] => if pending = none then some words else none
  | word :: rest =>
    match pending with
    | some name =>
      if isOption word then none else sort? valued plain none (words.withValue name word) rest
    | none =>
      if word = "--" then some { words with operands := words.operands ++ rest }
      else if !isOption word then
        sort? valued plain none { words with operands := words.operands ++ [word] } rest
      else if !word.startsWith "--" then none
      else match longOption word with
        | (name, some value) =>
          if name ∈ valued ∧ !words.mentions name then
            sort? valued plain none (words.withValue name value) rest
          else none
        | (name, none) =>
          if words.mentions name then none
          else if name ∈ valued then sort? valued plain (some name) words rest
          else if name ∈ plain then
            sort? valued plain none { words with flags := words.flags ++ [name] } rest
          else none

/-- The moment under an option; nothing if the option is given and its value is no moment. -/
def moment? (words : Words) (name : String) : Option (Option Instant) :=
  match words.values.lookup name with
  | none => some none
  | some text => (Instant.ofExtendedText? text.toList).map some

/-- The file that is the only operand. -/
def file? (words : Words) : Option String :=
  match words.operands with
  | [file] => if file = "" then none else some file
  | _ => none

/-- Reads the words after the name of a command. -/
def ofName? (name : String) (rest : List String) : Option Command :=
  let sorted? (valued plain : List String) : Option Words :=
    sort? ("log" :: valued) plain none ⟨[], [], []⟩ rest
  if rest.any fun word => word = "-h" ∨ word = "--help" then some .help
  else match name with
    | "inspect" => do
      let words ← sorted? [] []
      return .inspect (← file? words)
    | "slots" => do
      let words ← sorted? ["until"] ["json"]
      return .slots (← file? words) (← moment? words "until") ("json" ∈ words.flags)
    | "new" => do
      let words ← sorted? ["summary", "start", "end", "uid"] []
      guard (words.operands = [])
      let summary ← words.values.lookup "summary"
      let start ← (← moment? words "start")
      let finish ← (← moment? words "end")
      return .new summary start finish (words.values.lookup "uid")
    | "help" => some .help
    | _ => none

/-- The words without the option `--log` and its value at their head. -/
def afterLog : List String → List String
  | "--log" :: value :: rest => if isOption value then "--log" :: value :: rest else rest
  | word :: rest => if word.startsWith "--log=" then rest else word :: rest
  | [] => []

/-- Reads the words of the command line after the name of the program. -/
def ofWords? (words : List String) : Option Command :=
  match afterLog words with
  | [] => none
  | word :: rest =>
    if word = "-h" ∨ word = "--help" then some .help
    else if word = "-V" ∨ word = "--version" then some .version
    else ofName? word rest

end Command

end Almanac
