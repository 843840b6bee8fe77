import DecisionCycle.CommandLine.Arguments
import DecisionCycle.Json
import DecisionCycle.Matrix.Entry
import DecisionCycle.Report.Consequences
import DecisionCycle.Report.Quality
import DecisionCycle.Settings

/-!
The program on the command line: it reads a file, analyses what is in it, and
prints the report as JSON. Whatever is wrong with the file is told in one line
and makes the program end with code one.
-/

namespace DecisionCycle.CommandLine

/-- What a run of the program leaves: its exit code, what it prints, and what it
logs. -/
structure Result where
  exitCode : Nat
  output : String
  errors : String
  records : List LogRecord

namespace Result

def refused (reason : String) : Result :=
  { exitCode := 1, output := "", errors := "Error: " ++ reason ++ "\n", records := [] }

def failed (records : List LogRecord) (fault : Fault) : Result :=
  { exitCode := 1
    output := ""
    errors := "Error: " ++ fault.text ++ "\n"
    records :=
      records ++ [{ level := .error, message := "Analysis failed: " ++ fault.text }] }

def printed (records : List LogRecord) (report : Value) : Result :=
  match Json.text report with
  | .ok text => { exitCode := 0, output := text ++ "\n", errors := "", records }
  | .error fault => failed records (.payload fault)

end Result

def readPayload (reader : DocumentReader) (file : Except FileFault ByteArray) :
    Except Fault Value :=
  match file with
  | .error fault => .error (.file fault)
  | .ok data =>
    (reader (.ofBytes data)).mapError fun cause => .file (.document cause)

def runConsequences (payload : Value) : Result :=
  match payload with
  | .dict _ =>
    match Matrix.ofPayload payload with
    | .error fault => .failed [] (.payload fault)
    | .ok m =>
      let alternatives := m.alternatives.length
      let objectives := m.objectives.length
      let begun : LogRecord :=
        { level := .info
          message := s!"Analyzing {alternatives} alternatives x {objectives} objectives" }
      .printed (begun :: ConsequencesReport.records m)
        (ConsequencesReport.ofMatrix m).toPayload
  | _ => .refused "matrix file must contain a mapping"

/-- The elements in a payload: its items, or those under `elements`. -/
def elementItems? (payload : Value) : Option (List Value) :=
  let found :=
    match payload with
    | .dict entries => (Value.lookup? "elements" entries).getD .null
    | v => v
  match found with
  | .list items => some items
  | _ => none

def runQuality (payload : Value) : Result :=
  match elementItems? payload with
  | none => .refused "DQ file must contain a list of elements"
  | some items =>
    match items.mapM Element.ofPayload with
    | .error fault => .failed [] (.payload fault)
    | .ok elements =>
      let count := elements.length
      let begun : LogRecord :=
        { level := .info, message := s!"Scoring {count} decision quality elements" }
      .printed [begun] (QualityReport.ofElements elements).toPayload

def runCommand (reader : DocumentReader) (command : Command)
    (file : Except FileFault ByteArray) : Result :=
  match readPayload reader file with
  | .error fault => .failed [] fault
  | .ok payload =>
    match command with
    | .consequences => runConsequences payload
    | .quality => runQuality payload

inductive Ending where
  | usage (code : Nat)
  | result (r : Result)

/-- The program. Only the settings can make it fail altogether; warnings about
them are logged before the level is set. -/
def program (reader : DocumentReader) (w : Surroundings) (args : List String) :
    Except Fault Ending :=
  match Invocation.ofArguments args with
  | .help => .ok (.usage 0)
  | .misuse => .ok (.usage 2)
  | .run verbose command path => do
    let (settings, warnings) ← Settings.read reader w
    let result := runCommand reader command (w.files.contents path)
    let passing := LogRecord.passing (settings.threshold verbose) result.records
    return .result
      { result with records := warnings.map SettingsWarning.record ++ passing }

end DecisionCycle.CommandLine
