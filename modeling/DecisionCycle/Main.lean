import DecisionCycle.CommandLine.Program
import DecisionCycle.Yaml.Document

/-!
The executable: it collects the environment and the files that the program asks
for, reads documents with the reader of this library, and prints what the program leaves.
-/

namespace DecisionCycle.CommandLine

def variableNames : List String :=
  ["PROACT_CONFIG", "PROACT_LOG_LEVEL", "PROACT_LOG_FORMAT", "PROACT_DEBUG"]

def longName : String :=
  String.ofList (List.replicate (Files.nameLimit + 1) 'x')

/-- What there is at a path, other than a file that was read. How a name is looked for
there tells it: too long a name is refused for its length only where it may be looked for. -/
def lookBehind (path : Path) (readable : Bool) : IO FileState := do
  try
    discard (IO.FS.readBinFile (path.child longName).text)
    return .missing
  catch e =>
    match e with
    | .permissionDenied .. => return .directory readable false
    | .inappropriateType .. => return .locked
    | _ => return .directory readable true

def lookAt (path : Path) : IO FileState := do
  try
    return .bytes (← IO.FS.readBinFile path.text)
  catch e =>
    match e with
    | .noFileOrDirectory .. => return .missing
    | .permissionDenied .. => lookBehind path false
    | _ => lookBehind path true

/-- The environment, and what lies at the given paths and on the way there. -/
def look (args : List String) : IO Surroundings := do
  let vars ← variableNames.mapM fun name => do return (name, ← IO.getEnv name)
  let env (name : String) : Option String := (vars.lookup name).join
  let executable := Path.ofString (← IO.appPath).toString
  let root := { executable with names := executable.names.dropLast }
  let settingsPath := Settings.path { env, files := fun _ => .missing, root }
  let paths := (settingsPath :: args).flatMap fun s => (Path.ofString s).stages
  let found ← paths.mapM fun path => do return (path, ← lookAt path)
  return { env, files := fun path => (found.lookup path).getD .missing, root }

def usage : String :=
  "usage: proact [-h] [-v] (consequences | dq) FILE"

def execute (args : List String) : IO UInt32 := do
  match program Yaml.read (← look args) args with
  | .error fault =>
    IO.eprintln fault.text
    return 1
  | .ok (.usage code) =>
    if code = 0 then IO.println usage else IO.eprintln usage
    return UInt32.ofNat code
  | .ok (.result r) =>
    for record in r.records do
      IO.eprintln (record.level.name ++ ": " ++ record.message.shown)
    IO.eprint r.errors
    IO.print r.output
    return UInt32.ofNat r.exitCode

end DecisionCycle.CommandLine

def main (args : List String) : IO UInt32 :=
  DecisionCycle.CommandLine.execute args
