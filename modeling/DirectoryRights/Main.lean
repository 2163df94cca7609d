import DirectoryRights.CommandLine.Run
import Std.Time.DateTime.Timestamp

/-!
# The program

Runs the command line on the files, the variables and the clock of the system. What is printed goes
to standard output, what goes wrong to standard error.
-/

set_option autoImplicit false

namespace DirectoryRights.CommandLine

/-- The number of an error of the system, which some calls report with its sign turned. -/
def errorNumber (code : UInt32) : UInt32 :=
  min code (0 - code)

/-- The fault behind an error of the system. -/
def faultOf : IO.Error → FileFault
  | .noFileOrDirectory .. => .missing
  | .inappropriateType _ code _ => if errorNumber code = 20 then .notFolder else .isFolder
  | .invalidArgument _ code reason =>
    if errorNumber code = 36 then .nameTooLong
    else if errorNumber code = 22 then .badName
    else .refused reason
  | .permissionDenied .. => .refused "Permission denied (os error 13)"
  | .userError _ => .notText
  | e => .refused (toString e)

/-- The text of a file. -/
def readFile (path : String) : IO (Except FileFault String) := do
  try
    return .ok (← IO.FS.readFile path)
  catch e =>
    return .error (faultOf e)

/-- The variables of the process, as the system lists them. -/
def vars : IO (List (String × String)) := do
  match ← readFile "/proc/self/environ" with
  | .error _ => return []
  | .ok text =>
    return (Text.splitOn '\x00' text.toList).filterMap fun entry =>
      (Text.cutFirst? '=' entry).map fun (name, value) =>
        (String.ofList name, String.ofList value)

/-- The time in milliseconds. -/
def clock : IO Int := do
  return (← Std.Time.Timestamp.now).toMillisecondsSinceUnixEpoch.val

/-- Prints an outcome. -/
def Outcome.print : Outcome → IO Unit
  | .printed texts => texts.forM IO.println
  | .failed cause => IO.eprintln cause.text
  | .misused cause => IO.eprintln s!"error: {cause.text}"

end DirectoryRights.CommandLine

/-- Does what the arguments ask for. -/
def main (arguments : List String) : IO UInt32 := do
  let environment : DirectoryRights.CommandLine.Environment IO :=
    { read := DirectoryRights.CommandLine.readFile,
      vars := ← DirectoryRights.CommandLine.vars,
      now := ← DirectoryRights.CommandLine.clock }
  let outcome ← DirectoryRights.CommandLine.run environment arguments
  outcome.print
  return outcome.exitCode.toUInt32
