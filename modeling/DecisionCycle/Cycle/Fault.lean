import DecisionCycle.Payload

/-!
Why a decision cycle refuses something. None of these is worth a second try.
-/

namespace DecisionCycle

/-- What is wrong with the state of a cycle, or with a change to it. -/
inductive StateFault where
  /-- A reason in the caller's own words. -/
  | noted (message : String) (expected actual : Option Phase)
  | notWorking (phase : Phase)
  | notCompletable (phase : Phase)
  | misfiled (place phase : Phase)
  | outOfTurn (phase current : Phase)
  | unreadablePhase (cause : PayloadFault)
  | malformed (key : Value) (cause : PayloadFault)

namespace StateFault

def reason : StateFault → String
  | noted message _ _ => message
  | notWorking phase => phase.title ++ " is not a working phase"
  | notCompletable phase =>
      phase.title ++ " is not a working phase and cannot be completed"
  | misfiled place phase => "Summary for " ++ phase.title ++ " stored under " ++ place.title
  | outOfTurn phase current =>
      "Cannot complete " ++ phase.title ++ " while on " ++ current.title
  | unreadablePhase cause => cause.text
  | malformed key cause => "Malformed summary for " ++ key.literal ++ ": " ++ cause.text

def expected? : StateFault → Option Phase
  | noted _ expected _ => expected
  | misfiled place _ => some place
  | outOfTurn _ current => some current
  | _ => none

def actual? : StateFault → Option Phase
  | noted _ _ actual => actual
  | notWorking phase => some phase
  | notCompletable phase => some phase
  | misfiled _ phase => some phase
  | outOfTurn phase _ => some phase
  | _ => none

end StateFault

/-- Why a cycle refuses a request. -/
inductive CycleFault where
  | invalidTransition (source target : Phase) (reachable : List Phase)
  | invalidState (cause : StateFault)
  | cycleCompleted (phase : Phase)

namespace CycleFault

def label : CycleFault → String
  | invalidTransition .. => "InvalidTransitionError"
  | invalidState _ => "InvalidStateError"
  | cycleCompleted _ => "CycleCompletedError"

def titles (phases : List Phase) : String :=
  if phases.isEmpty then "none" else ", ".intercalate (phases.map Phase.title)

def message : CycleFault → String
  | invalidTransition source target reachable =>
      "Invalid transition from " ++ source.title ++ " to " ++ target.title ++
        ". Reachable phases: " ++ titles reachable
  | invalidState cause => "Invalid state: " ++ cause.reason
  | cycleCompleted phase =>
      "Cycle already completed: " ++ phase.title ++ " is the last phase"

end CycleFault

end DecisionCycle
