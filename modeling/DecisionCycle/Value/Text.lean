import DecisionCycle.Number.Text
import DecisionCycle.Text.Numeral
import DecisionCycle.Text.Quoted
import DecisionCycle.Timestamp.Text
import DecisionCycle.Value

/-!
Values as text. `literal` shows a value so that its kind can be told, with texts
in quotes; `text` is the same except for a text, which stands for itself, and for
days and timestamps, which are written out. Both are meant for values that can be
written: an integer of thousands of digits cannot.
-/

namespace DecisionCycle

namespace Timestamp

/-- An offset as the zone that it makes. A negative length is written as days
back and the rest forward. -/
def zoneLiteral (offset : Int) : String :=
  if offset = 0 then "datetime.timezone.utc"
  else
    let days := offset.fdiv dayMicros
    let seconds := offset.fmod dayMicros / 1000000
    let micros := offset.fmod 1000000
    let parts :=
      (if days = 0 then [] else [s!"days={days}"]) ++
        (if seconds = 0 then [] else [s!"seconds={seconds}"]) ++
        (if micros = 0 then [] else [s!"microseconds={micros}"])
    "datetime.timezone(datetime.timedelta(" ++ ", ".intercalate parts ++ "))"

/-- A timestamp as a constructor call, without the seconds and microseconds at
its end that are zero. -/
def literal (t : Timestamp) : String :=
  let seconds :=
    if t.clock.micro ≠ 0 then [t.clock.second, t.clock.micro]
    else if t.clock.second ≠ 0 then [t.clock.second]
    else []
  let numbers :=
    [t.date.year, t.date.month, t.date.day, t.clock.hour, t.clock.minute] ++ seconds
  let zone := t.offset.toList.map fun offset => "tzinfo=" ++ zoneLiteral offset
  "datetime.datetime(" ++ ", ".intercalate (numbers.map toString ++ zone) ++ ")"

def spacedText (t : Timestamp) : String :=
  String.ofList (t.date.chars ++ ' ' :: t.clock.chars ++ (t.offset.map offsetText).getD [])

end Timestamp

def Date.literal (d : Date) : String :=
  "datetime.date(" ++ ", ".intercalate ([d.year, d.month, d.day].map toString) ++ ")"

namespace Value

def isWritableInt (n : Int) : Bool :=
  n.natAbs < Nat.pow 10 Text.digitLimit

mutual

/-- Whether a value can be written out: every integer in it can. -/
def isWritable : Value → Bool
  | .int n => isWritableInt n
  | .list items => areWritable items
  | .dict entries => areWritableEntries entries
  | _ => true

def areWritable : List Value → Bool
  | [] => true
  | v :: rest => v.isWritable && areWritable rest

def areWritableEntries : List (Value × Value) → Bool
  | [] => true
  | (k, v) :: rest => k.isWritable && v.isWritable && areWritableEntries rest

end

def boolText (b : Bool) : String :=
  if b then "True" else "False"

mutual

/-- A value as messages show it. -/
def literal : Value → String
  | .null => "None"
  | .bool b => boolText b
  | .int n => toString n
  | .float x => x.text
  | .str s => String.ofList (Text.quoted s)
  | .list items => "[" ++ ", ".intercalate (literals items) ++ "]"
  | .dict entries => "\x7b" ++ ", ".intercalate (entryLiterals entries) ++ "\x7d"
  | .date d => d.literal
  | .time t => t.literal

def literals : List Value → List String
  | [] => []
  | v :: rest => v.literal :: literals rest

def entryLiterals : List (Value × Value) → List String
  | [] => []
  | (k, v) :: rest => (k.literal ++ ": " ++ v.literal) :: entryLiterals rest

end

def text : Value → Text
  | .str s => s
  | .date d => String.ofList d.chars
  | .time t => t.spacedText
  | v => v.literal

end Value

end DecisionCycle
