import DecisionCycle.Fault
import DecisionCycle.Log
import DecisionCycle.Payload

/-!
The settings of the program: how much is logged, in which form, and whether it
runs in debug mode. An environment variable has precedence over the settings
file, and the file over the built-in defaults. Settings that were read are kept
until they are asked for anew.
-/

namespace DecisionCycle

structure Settings where
  level : Level
  format : Value
  debug : Bool

/-- What the program finds around it: environment variables, files, and the directory in
which it is installed. -/
structure Surroundings where
  env : String → Option String
  files : Files
  root : Path

inductive SettingsWarning where
  | unreadable
  | notMapping
  deriving DecidableEq

namespace SettingsWarning

def label : SettingsWarning → String
  | unreadable => "unreadable"
  | notMapping => "not_a_mapping"

def record (w : SettingsWarning) : LogRecord :=
  { level := .warning, message := w.label }

end SettingsWarning

namespace Settings

def defaultFormat : String :=
  "%(asctime)s [%(levelname)s] %(name)s: %(message)s"

def defaultPath (w : Surroundings) : String :=
  (w.root.child "config.yaml").text

def path (w : Surroundings) : String :=
  match w.env "PROACT_CONFIG" with
  | some p => if p.isEmpty then defaultPath w else p
  | none => defaultPath w

/-- The settings file as a mapping, given what is in it. Where there can be no file
it is empty. What may not be read, a directory, a malformed document and one that is no
mapping are passed over with a warning. Anything else that is wrong with the file is a
fault. -/
def readFile (reader : DocumentReader) (file : Except FileFault ByteArray) :
    Except Fault (Value × List SettingsWarning) :=
  match file with
  | .error .missing => .ok (.dict [], [])
  | .error .belowFile => .ok (.dict [], [])
  | .error .unnameable => .ok (.dict [], [])
  | .error .directory => .ok (.dict [], [.unreadable])
  | .error .forbidden => .ok (.dict [], [.unreadable])
  | .error cause => .error (.file cause)
  | .ok data =>
    match reader (.ofBytes data) with
    | .error .malformed => .ok (.dict [], [.unreadable])
    | .error cause => .error (.file (.document cause))
    | .ok v =>
      match v.orElse (.dict []) with
      | .dict entries => .ok (.dict entries, [])
      | _ => .ok (.dict [], [.notMapping])

def section? (contents : Value) (name : String) : Except PayloadFault Value := do
  return (← contents.field name).orElse (.dict [])

/-- The level that a text names, blanks and letter case aside; any other text
means the usual level. -/
def readLevel (t : Text) : Level :=
  (t.chars?.bind fun s => Level.ofName? (Text.upper (Text.trim s))).getD .info

def readSwitch (s : String) : Option Bool :=
  let word := String.ofList (Text.lower (Text.trim s.toList))
  if ["true", "1", "yes"].contains word then some true
  else if ["false", "0", "no"].contains word then some false
  else none

/-- Whether debug mode is on: as the environment says, or else the file. -/
def readDebug (w : Surroundings) (app : Value) : Except PayloadFault Bool :=
  match readSwitch ((w.env "PROACT_DEBUG").getD "") with
  | some b => .ok b
  | none => (app.fieldOr "debug" (.bool false)).map Value.isGiven

def ofContents (w : Surroundings) (contents : Value) : Except PayloadFault Settings := do
  let logging ← section? contents "logging"
  let levelText ← (← logging.fieldOr "level" (.str "INFO")).written
  let format ← logging.fieldOr "format" (.str defaultFormat)
  let app ← section? contents "app"
  return {
    level := readLevel (((w.env "PROACT_LOG_LEVEL").map Text.ofString).getD levelText)
    format := ((w.env "PROACT_LOG_FORMAT").map fun s => .str s).getD format
    debug := ← readDebug w app }

def read (reader : DocumentReader) (w : Surroundings) :
    Except Fault (Settings × List SettingsWarning) := do
  let (contents, warnings) ← readFile reader (w.files.contents (path w))
  let settings ← (ofContents w contents).mapError .payload
  return (settings, warnings)

/-- The level of what is logged: everything, if asked for or in debug mode. -/
def threshold (s : Settings) (verbose : Bool) : Level :=
  if verbose || s.debug then .debug else s.level

end Settings

abbrev SettingsCache := Option Settings

/-- What comes of asking for the settings: them or a fault, with warnings about
the file, and what is kept. -/
structure SettingsLookup where
  answer : Except Fault (Settings × List SettingsWarning)
  cache : SettingsCache

namespace SettingsCache

/-- Asks for the settings. The kept ones are the answer, unless they are to be
read anew or there are none. What cannot be read changes nothing. -/
def load (reader : DocumentReader) (cache : SettingsCache) (reload : Bool)
    (w : Surroundings) : SettingsLookup :=
  match cache, reload with
  | some settings, false => { answer := .ok (settings, []), cache }
  | _, _ =>
    match Settings.read reader w with
    | .ok (settings, warnings) =>
        { answer := .ok (settings, warnings), cache := some settings }
    | .error fault => { answer := .error fault, cache }

end SettingsCache

end DecisionCycle
