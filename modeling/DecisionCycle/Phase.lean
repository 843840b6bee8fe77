import DecisionCycle.Text
import DecisionCycle.Text.Blank
import DecisionCycle.Text.Case

/-!
The phases of a decision, in their fixed order. The first eight are worked
through in a decision cycle; the last one closes it and is never worked on.
-/

namespace DecisionCycle

inductive Phase where
  | issueRaising
  | problemFrame
  | objectives
  | alternatives
  | consequences
  | tradeoffs
  | recommendation
  | decisionQuality
  | notesNextSteps
  deriving DecidableEq, Inhabited

namespace Phase

def all : List Phase :=
  [issueRaising, problemFrame, objectives, alternatives, consequences, tradeoffs,
    recommendation, decisionQuality, notesNextSteps]

/-- The phases of a cycle, in order: all but the closing one. -/
def working : List Phase :=
  all.take 8

def IsWorking (p : Phase) : Prop :=
  p ≠ notesNextSteps

instance (p : Phase) : Decidable p.IsWorking :=
  inferInstanceAs (Decidable (_ ≠ _))

@[simp] theorem mem_working {p : Phase} : p ∈ working ↔ p.IsWorking := by
  cases p <;> decide

theorem nodup_working : working.Nodup := by
  decide

def index : Phase → Nat
  | issueRaising => 0
  | problemFrame => 1
  | objectives => 2
  | alternatives => 3
  | consequences => 4
  | tradeoffs => 5
  | recommendation => 6
  | decisionQuality => 7
  | notesNextSteps => 8

def next? (p : Phase) : Option Phase :=
  all[p.index + 1]?

def previous? (p : Phase) : Option Phase :=
  if p.index = 0 then none else all[p.index - 1]?

def isBefore (p q : Phase) : Bool :=
  p.index < q.index

def isAfter (p q : Phase) : Bool :=
  q.index < p.index

def key : Phase → String
  | issueRaising => "issue_raising"
  | problemFrame => "problem_frame"
  | objectives => "objectives"
  | alternatives => "alternatives"
  | consequences => "consequences"
  | tradeoffs => "tradeoffs"
  | recommendation => "recommendation"
  | decisionQuality => "decision_quality"
  | notesNextSteps => "notes_next_steps"

def capitalName : Phase → String
  | issueRaising => "ISSUE_RAISING"
  | problemFrame => "PROBLEM_FRAME"
  | objectives => "OBJECTIVES"
  | alternatives => "ALTERNATIVES"
  | consequences => "CONSEQUENCES"
  | tradeoffs => "TRADEOFFS"
  | recommendation => "RECOMMENDATION"
  | decisionQuality => "DECISION_QUALITY"
  | notesNextSteps => "NOTES_NEXT_STEPS"

def title : Phase → String
  | issueRaising => "Issue Raising"
  | problemFrame => "Problem Frame"
  | objectives => "Objectives"
  | alternatives => "Alternatives"
  | consequences => "Consequences"
  | tradeoffs => "Tradeoffs"
  | recommendation => "Recommendation"
  | decisionQuality => "Decision Quality"
  | notesNextSteps => "Notes & Next Steps"

def abbreviation : Phase → String
  | issueRaising => "IR"
  | problemFrame => "PF"
  | objectives => "OBJ"
  | alternatives => "ALT"
  | consequences => "CON"
  | tradeoffs => "TRD"
  | recommendation => "REC"
  | decisionQuality => "DQ"
  | notesNextSteps => "NNS"

def isNamed (p : Phase) (name : List Char) : Bool :=
  name == p.key.toList || name == Text.lower p.capitalName.toList ||
    name == Text.lower p.title.toList

/-- The phase that a text names by key, capital name or title, blanks around it
and letter case aside. -/
def parse? (t : Text) : Option Phase :=
  t.chars?.bind fun s => all.find? fun p => p.isNamed (Text.lower (Text.trim s))

@[simp] theorem parse?_key (p : Phase) : parse? p.key = some p := by
  cases p <;> decide +kernel

/-- The phase with the given key, written exactly. -/
def ofKey? (s : String) : Option Phase :=
  all.find? fun p => p.key == s

end Phase

end DecisionCycle
