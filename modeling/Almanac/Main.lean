import Almanac.Command.Run
import Std.Time.DateTime.Timestamp

/-!
The program: looks around, runs the command and prints what it amounts to.
-/

namespace Almanac.Program

/-- The variables of the environment that the program looks at. -/
def variableNames : List String :=
  ["KALENDS__LOGGING__LEVEL", "KALENDS__CALENDAR__PRODUCT_ID",
    "KALENDS__RECURRENCE__DEFAULT_HORIZON_DAYS"]

/-- The environment variables that are set. -/
def environment : IO Dotenv.Variables := do
  let found ← variableNames.mapM fun name => return (name, ← IO.getEnv name)
  return found.filterMap fun (name, value) => value.map fun value => (name, value)

/-- What reading a file comes to. -/
def readFile (name : String) : IO (Except String (List UInt8)) := do
  try
    return .ok (← IO.FS.readBinFile name).toList
  catch
    | .noFileOrDirectory .. => return .error "No such file or directory (os error 2)"
    | .permissionDenied .. => return .error "Permission denied (os error 13)"
    | error => return .error (toString error)

/-- The present moment, to the nanosecond. -/
def present : IO Instant := do
  let nanos := (← Std.Time.Timestamp.now).toNanosecondsSinceUnixEpoch.val
  return (Instant.ofParts? (nanos / 1000000000) (nanos % 1000000000).toNat).getD .epoch

/-- A random identifier: sixteen bytes in hexadecimal, in groups, with the marks of their kind. -/
def randomId : IO String := do
  let bytes := (← IO.getRandomBytes 16).toList.mapIdx fun i byte =>
    if i = 6 then byte % 16 + 64 else if i = 8 then byte % 64 + 128 else byte
  let pair (byte : UInt8) : List Char :=
    [Nat.digitChar (byte.toNat / 16), Nat.digitChar (byte.toNat % 16)]
  let group (start count : Nat) : String :=
    String.ofList (((bytes.drop start).take count).flatMap pair)
  return "-".intercalate [group 0 4, group 4 2, group 6 2, group 8 2, group 10 6]

/-- What the program finds around it, with the files of some names. -/
def surroundings (names : List String) : IO Surroundings := do
  let files ← names.mapM fun name => return (name, ← readFile name)
  let file (name : String) : Except String (List UInt8) :=
    (files.lookup name).getD (.error "No such file or directory (os error 2)")
  return ⟨← environment, file, ← present, ← randomId⟩

end Almanac.Program

open Almanac in
/-- Runs the command that the words ask for. -/
def main (words : List String) : IO UInt32 := do
  let outcome := Command.run (← Program.surroundings (Command.fileNames words)) words
  IO.print outcome.output
  match outcome.error with
  | some error => IO.eprintln ("Error: " ++ error)
  | none => if outcome.code = 2 then IO.eprint Command.usageText
  return .ofNat outcome.code
