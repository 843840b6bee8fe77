import DecisionCycle.Phase

/-!
What a caller wants to do next in a cycle. Only navigation needs a phase to go
to; the other intents may name one, which then means nothing.
-/

namespace DecisionCycle

/-- The intents that need no phase. -/
inductive Errand where
  | continue_
  | branch
  | summarize
  | complete
  deriving DecidableEq

inductive Intent where
  | navigate (target : Phase)
  | errand (kind : Errand) (target : Option Phase)
  deriving DecidableEq

/-- Why there is no such intent. -/
inductive IntentFault where
  | unknownKind
  | missingTarget

namespace IntentFault

def label : IntentFault → String
  | unknownKind => "ValueError"
  | missingTarget => "ValueError"

def message? : IntentFault → Option String
  | unknownKind => none
  | missingTarget => some "NAVIGATE intent requires a target phase"

end IntentFault

namespace Errand

def name : Errand → String
  | continue_ => "CONTINUE"
  | branch => "BRANCH"
  | summarize => "SUMMARIZE"
  | complete => "COMPLETE"

def ofName? (s : String) : Option Errand :=
  [continue_, branch, summarize, complete].find? fun e => e.name == s

end Errand

namespace Intent

def kindName : Intent → String
  | navigate _ => "NAVIGATE"
  | errand kind _ => kind.name

def target? : Intent → Option Phase
  | navigate target => some target
  | errand _ target => target

def navigation (target : Option Phase) : Except IntentFault Intent :=
  match target with
  | some p => .ok (.navigate p)
  | none => .error .missingTarget

def ofName (kind : String) (target : Option Phase) : Except IntentFault Intent :=
  if kind = "NAVIGATE" then navigation target
  else
    match Errand.ofName? kind with
    | some e => .ok (.errand e target)
    | none => .error .unknownKind

end Intent

end DecisionCycle
