import DecisionCycle.Cycle.Fault
import DecisionCycle.File
import DecisionCycle.Intent

/-!
Everything that can go wrong, for those who only report it: the kind of fault
and its message.
-/

namespace DecisionCycle

inductive Fault where
  | payload (cause : PayloadFault)
  | intent (cause : IntentFault)
  | cycle (cause : CycleFault)
  | file (cause : FileFault)

namespace Fault

def label : Fault → String
  | payload cause => cause.label
  | intent cause => cause.label
  | cycle cause => cause.label
  | file cause => cause.label

def message? : Fault → Option String
  | payload cause => cause.message?
  | intent cause => cause.message?
  | cycle cause => some cause.message
  | file _ => none

/-- A fault as other messages quote it: its message, or else its kind. -/
def text (f : Fault) : String :=
  f.message?.getD ("<" ++ f.label ++ ">")

end Fault

end DecisionCycle
