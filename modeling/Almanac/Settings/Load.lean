import Almanac.Settings.Basic
import Almanac.Settings.Dotenv
import Almanac.Settings.Toml

/-!
Where the settings come from.  The defaults come first; environment variables
`KALENDS__SECTION__NAME` override them, and the configuration file overrides both.  An environment
variable without a value does not count.  Variables from a file of variables count like those of the
environment, in which the one that is there first is kept.
-/

namespace Almanac.Settings

/-- The name of the configuration file. -/
def fileName : String := "kalends.toml"

/-- The name of the file of environment variables. -/
def variablesFileName : String := ".env"

/-- The source of values from the environment, as complaints name it. -/
def environmentName : String := "the environment"

/-- The value of an environment variable: a truth value, an integer, a number or a text. -/
def leafOfVariable (value : String) : Leaf :=
  let word := value.toLower
  if word = "true" then .bool true
  else if word = "false" then .bool false
  else match Text.readSigned? intRange.1 intRange.2 value.toList with
    | some n => .int n
    | none =>
      match Binary64.ofText? value with
      | some x => .float x
      | none => .text value

/-- The place in the tree that an environment variable sets, if it sets one. -/
def pathOfVariable? (name : String) : Option (List Step) :=
  let name := String.ofList (Text.visibleLower name.toList)
  match name.splitOn "__" with
  | "kalends" :: first :: rest => some (pathOf (".".intercalate (first :: rest)))
  | _ => none

/-- The tree with the environment put in. -/
def putVariables (tree : Entry) (environment : Dotenv.Variables) : Entry :=
  environment.foldl (fun tree (name, value) =>
    match value, pathOfVariable? name with
    | "", _ | _, none => tree
    | value, some path => tree.put path (.leaf (leafOfVariable value) environmentName)) tree

/-- The tree with a file put in; a name that spells a path counts as one. -/
def putFile (tree file : Entry) : Entry :=
  file.rows.foldl (fun tree (name, child) => tree.put (pathOf name) child) tree

/-- The default settings as a tree. -/
def defaultTree : Entry :=
  let group (name : String) (value : Leaf) : Entry := .table [(name, .leaf value "")] ""
  .table
    [("logging", group "level" (.text default.level)),
     ("calendar", group "product_id" (.text default.productId)),
     ("recurrence", group "default_horizon_days" (.int default.horizonDays))] ""

/-- The end of a complaint: the key and, if it has one, the source of a value. -/
def whereabouts (key source : String) : String :=
  " for key " ++ ticked key ++ if source = "" then "" else " in " ++ source

/-- The value of a tree, converted, or the complaint about its type. -/
def valueOf (e : Entry) (key expected : String) (convert : Leaf → Option α) : Except String α :=
  match e.value? convert with
  | some value => .ok value
  | none => .error (s!"invalid type: {e.words}, expected {expected}" ++ whereabouts key e.source)

/-- The value of the one setting of a group.  A group that is a list has it at its front. -/
def valueAt (tree : Entry) (group record name expected : String) (convert : Leaf → Option α) :
    Except String α :=
  match tree.get? group with
  | none => .error ("missing field " ++ ticked group)
  | some (.leaf value _) =>
    .error (s!"invalid type: {value.words}, expected struct {record}" ++ whereabouts group "")
  | some (.list [] _) =>
    .error (s!"invalid length 0, expected struct {record} with 1 element" ++ whereabouts group "")
  | some (.list (e :: _) _) => valueOf e (group ++ "[0]") expected convert
  | some (.table rows _) =>
    match rows.lookup name with
    | some e => valueOf e (group ++ "." ++ name) expected convert
    | none => .error ("missing field " ++ ticked name ++ whereabouts group "")

/-- The settings that a tree holds. -/
def ofTree (tree : Entry) : Except String Settings := do
  let level ← valueAt tree "logging" "LoggingConfig" "level" "a string" Leaf.text?
  let productId ← valueAt tree "calendar" "CalendarConfig" "product_id" "a string" Leaf.text?
  let days ← valueAt tree "recurrence" "RecurrenceConfig" "default_horizon_days" "an integer"
    Leaf.int?
  return ⟨level, productId, days⟩

/-- The settings under an environment and, if they are there, a file of variables and a
configuration file; or a complaint. -/
def load (environment : Dotenv.Variables) (variablesFile file : Option String) :
    Except String Settings := do
  let environment := (variablesFile.map (Dotenv.extend environment)).getD environment
  let tree := putVariables defaultTree environment
  let tree ← match file with
    | none => pure tree
    | some text => (putFile tree) <$> (Toml.read fileName text).mapError (· ++ " in " ++ fileName)
  let settings ← ofTree tree
  match settings.complaint? with
  | some complaint => throw complaint
  | none => return settings

end Almanac.Settings
