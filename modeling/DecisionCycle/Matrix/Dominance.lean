import DecisionCycle.Log
import DecisionCycle.Matrix.Basic

/-!
Comparing alternatives. One dominates another if it is nowhere worse and
somewhere better; an objective is irrelevant if it tells no alternatives apart;
and the best alternative is the one with the highest score, if there is only
one.
-/

namespace DecisionCycle

/-- An alternative that is dominated, the first alternative that dominates it,
and the objectives on which that one is better. -/
structure Domination where
  alternative : Text
  dominator : Text
  betterOn : List Text
  deriving DecidableEq

def Domination.explanation (d : Domination) : Text :=
  d.dominator ++ " is at least as good on all objectives and strictly better on: " ++
    Text.join ", " d.betterOn

structure Irrelevance where
  objective : Text
  rating : Int
  deriving DecidableEq

def Irrelevance.reason : String :=
  "All alternatives have the same rating"

namespace Matrix

/-- Whether `a` is nowhere worse than `b` and somewhere better. -/
def dominates (m : Matrix) (a b : Text) : Bool :=
  (m.objectives.all fun o => decide (m.rating b o ≤ m.rating a o)) &&
    m.objectives.any fun o => decide (m.rating b o < m.rating a o)

def dominator? (m : Matrix) (b : Text) : Option Text :=
  m.alternatives.find? fun a => a != b && m.dominates a b

def betterOn (m : Matrix) (a b : Text) : List Text :=
  m.objectives.filter fun o => decide (m.rating b o < m.rating a o)

def dominations (m : Matrix) : List Domination :=
  m.alternatives.filterMap fun b =>
    (m.dominator? b).map fun a =>
      { alternative := b, dominator := a, betterOn := m.betterOn a b }

def uniformRating? (m : Matrix) (objective : Text) : Option Int :=
  match m.alternatives.map fun a => m.rating a objective with
  | [] => none
  | r :: rest => if rest.all (· == r) then some r else none

/-- The irrelevant objectives, in order. A single alternative makes none. -/
def irrelevances (m : Matrix) : List Irrelevance :=
  if m.alternatives.length < 2 then []
  else
    m.objectives.filterMap fun o =>
      (m.uniformRating? o).map fun r => { objective := o, rating := r }

def topScore? (m : Matrix) : Option Int :=
  m.scores.values.max?

def leaders (m : Matrix) : List Text :=
  (m.scores.rows.filter fun row => some row.2 == m.topScore?).map Prod.fst

/-- The alternative whose score is higher than any other. -/
def best? (m : Matrix) : Option Text :=
  match m.leaders with
  | [a] => some a
  | _ => none

def dominationRecords (m : Matrix) : List LogRecord :=
  let found := m.dominations.length
  let total := m.alternatives.length
  if total < 2 then []
  else [{ level := .debug
          message := s!"find_dominated: {found} of {total} alternatives dominated" }]

/-- What the search for the best alternative logs: a tie. -/
def tieRecords (m : Matrix) : List LogRecord :=
  match m.topScore? with
  | none => []
  | some top =>
    let count := m.leaders.length
    if count = 1 then []
    else [{ level := .debug
            message := s!"find_best: {count} alternatives tied at {top}, no unique best" }]

end Matrix

end DecisionCycle
