/-
# The command-line tool

Gathers what a command needs from the system, runs it, and writes what it leaves
behind. A run that takes time says how much: it is timed first, and then run again with
that time to report.
-/

import SearchMarkup.CommandLine.Run
import Std.Time.DateTime.Timestamp

namespace SearchMarkup
namespace CommandLine

/-- The names of the variables that settings are taken from. -/
def settingNames : List String := [
  "QHL_LEXICAL_DETAILED_METRICS", "QHL_LEXICAL_LOG_DEGRADED", "QHL_LEXICAL_INCLUDE_POSITIONS",
  "QHL_MARKER_OPEN_TAG", "QHL_MARKER_CLOSE_TAG", "QHL_MARKER_LOG_MALFORMED",
  "QHL_RENDER_CLASS_STYLE", "QHL_RENDER_QUOTES_IN_VALUE", "QHL_LOGGING_USE_STRUCTURED",
  "QHL_LOGGING_ENABLE_CONSOLE", "QHL_LOGGING_MIN_LEVEL", "QHL_LOGGING_LOG_PERFORMANCE"]

/-- The variables that are set. -/
def readEnvironment : IO Environment := do
  let mut found := []
  for name in settingNames do
    if let some value ← IO.getEnv name then found := found ++ [(name, value)]
  return found

/-- Whether the code of a system error stands for a number; some calls negate it. -/
def hasNumber (code number : UInt32) : Bool := code == number || code == 0 - number

/-- The fault that a system error reports. -/
def faultOf : IO.Error → ReadFault
  | .noFileOrDirectory .. => .notFound
  | .inappropriateType _ code _ => if hasNumber code 20 then .notDirectory else .isDirectory
  | .invalidArgument f code details =>
    if hasNumber code 36 then .nameTooLong
    else .other (toString (IO.Error.invalidArgument f code details))
  | e => .other (toString e)

/-- What a path leads to. -/
def readPath (path : String) : IO (Except ReadFault ByteArray) := do
  try
    return .ok (← IO.FS.readBinFile path)
  catch e =>
    return .error (faultOf e)

/-- The present moment. -/
def now : IO Moment := do
  let present := (← Std.Time.Timestamp.now).val
  return ⟨present.second.val, present.nano.val.toNat⟩

/-- How long a run takes; its output is set aside, so that it is made in that time. -/
def timed (w : Surroundings) (args : List String) : IO Elapsed := do
  let begun ← IO.monoNanosNow
  let _ ← IO.mkRef (run w args).stdout.length
  return .ofNanos ((← IO.monoNanosNow) - begun)

/-- The file a command reads, if any. -/
def fileOf : Option Invocation → Option String
  | some (.run _ _ (.tokenize _ file _ _)) => file
  | some (.run _ _ (.markers _ file _ _ _)) => file
  | _ => none

/-- Whether a command reads standard input. -/
def readsStdin : Option Invocation → Bool
  | some (.run _ _ (.tokenize queries file _ _)) => file.isNone && queries.isEmpty
  | some (.run _ _ (.markers items file _ _ _)) => file.isNone && items.isEmpty
  | _ => false

end CommandLine
end SearchMarkup

open SearchMarkup CommandLine in
/-- Runs the tool on the arguments of the process. -/
def main (args : List String) : IO UInt32 := do
  let asked := parse? args
  let stdin ← if readsStdin asked then (← IO.getStdin).readBinToEnd else pure .empty
  let files : Files ← match fileOf asked with
    | some path => do let read ← readPath path; pure fun _ => read
    | none => pure fun _ => .error .notFound
  let w : Surroundings :=
    { environment := ← readEnvironment, stdin := stdin, files := files, moment := ← now }
  let outcome := run { w with elapsed := ← timed w args } args
  for line in outcome.stderr do IO.eprintln line
  IO.print (String.ofList outcome.stdout)
  return outcome.exit.toUInt32
