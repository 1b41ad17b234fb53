import Almanac.Command.Args
import Almanac.Command.Report
import Almanac.Component.Builder
import Almanac.Settings.Load

/-!
Running a command in surroundings that are given as a value: the environment, the files, the present
moment and a fresh identifier.
-/

namespace Almanac

/-- What the program can see around it. -/
structure Surroundings where
  /-- The environment variables. -/
  environment : Dotenv.Variables
  /-- The bytes of a file, or the reason why they cannot be had. -/
  file : String → Except String (List UInt8)
  /-- The present moment. -/
  now : Instant
  /-- An identifier that no event has yet. -/
  freshId : String

namespace Surroundings

/-- The text of a file that may be absent; one that is not UTF-8 counts as absent. -/
def text? (around : Surroundings) (name : String) : Option String :=
  match around.file name with
  | .ok bytes => ((Utf8.decode bytes).toOption).map String.ofList
  | .error _ => none

/-- The settings of the program. -/
def settings (around : Surroundings) : Except String Settings :=
  Settings.load around.environment (around.text? Settings.variablesFileName)
    (around.text? Settings.fileName)

end Surroundings

/-- How a run ends. -/
structure Outcome where
  /-- The exit code: zero, one for an error, two for a command line that is not understood. -/
  code : Nat
  /-- What is printed. -/
  output : String
  /-- The error, if there is one. -/
  error : Option String
  deriving DecidableEq, Repr

namespace Command

/-- The calendar in a file, or the complaint about it. -/
def readCalendar (around : Surroundings) (file : String) : Except String Calendar :=
  let result : Except Failure Calendar :=
    match around.file file with
    | .ok bytes => Calendar.ofBytes bytes
    | .error reason => .error (.read (.system reason))
  result.mapError fun failure =>
    Report.causes ("Failed to read " ++ file) <| failure.message :: match failure with
      | .parse error => [error.message]
      | .read error => [error.message]
      | _ => []

/-- The version of the program. -/
def versionText : String := "kalends 0.1.0\n"

/-- How the program is used. -/
def usageText : String :=
  "Usage: kalends [--log FILTER] COMMAND\n\n" ++
  "  inspect FILE\n" ++
  "  slots FILE [--until TIME] [--json]\n" ++
  "  new --summary TEXT --start TIME --end TIME [--uid TEXT]\n"

/-- A new calendar with one event. -/
def newCalendar (around : Surroundings) (settings : Settings) (summary : String)
    (start finish : Instant) (uid : Option String) : Calendar :=
  let edits : List Event.Edit :=
    [.stampedAt around.now, .summary summary, .startAt start, .endAt finish]
  let event := edits.foldl Event.edit (Event.new (uid.getD around.freshId))
  (Calendar.newFor settings.productId).push event.toComponent

/-- What a command prints under some settings, or the error that it ends with. -/
def perform (around : Surroundings) (settings : Settings) : Command → Except String String
  | .inspect file => (readCalendar around file).map Report.summary
  | .slots file bound json => do
    let calendar ← readCalendar around file
    let slots := calendar.events.flatMap fun e => e.slots bound around.now settings.horizon
    return if json then Report.slotsJson slots else Report.slotLines slots
  | .new summary start finish uid =>
    if finish < start then
      .error s!"Event end {finish.spokenText} is before its start {start.spokenText}"
    else .ok (newCalendar around settings summary start finish uid).text
  | .version => .ok versionText
  | .help => .ok usageText

/-- The files that the program looks at on the words of its command line. -/
def fileNames (words : List String) : List String :=
  let settings := [Settings.fileName, Settings.variablesFileName]
  match ofWords? words with
  | some (.inspect file) | some (.slots file ..) => settings ++ [file]
  | _ => settings

/-- Runs the program on the words of its command line. -/
def run (around : Surroundings) (words : List String) : Outcome :=
  match ofWords? words with
  | none => ⟨2, "", none⟩
  | some .version => ⟨0, versionText, none⟩
  | some .help => ⟨0, usageText, none⟩
  | some command =>
    match around.settings.bind fun settings => command.perform around settings with
    | .ok output => ⟨0, output, none⟩
    | .error error => ⟨1, "", some error⟩

end Command

end Almanac
