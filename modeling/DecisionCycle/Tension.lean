import DecisionCycle.Matrix.Dominance

/-!
Tensions between alternatives: what each one gains and what it gives up against
the others that are worth considering.
-/

namespace DecisionCycle

/-- The objectives on which an alternative beats another viable one, and those
on which another viable one beats it. -/
structure Tension where
  alternative : Text
  gains : List Text
  losses : List Text
  deriving DecidableEq

structure TensionSummary where
  total : Nat
  hasClearWinner : Bool
  mostBalanced : Option Text
  mostPolarizing : Option Text
  deriving DecidableEq

namespace Tension

/-- Whether the alternative gains and gives up nothing. -/
def isClearWinner (t : Tension) : Bool :=
  !t.gains.isEmpty && t.losses.isEmpty

def hasTradeoffs (t : Tension) : Bool :=
  !t.gains.isEmpty && !t.losses.isEmpty

/-- How much the alternative gains and gives up. -/
def intensity (t : Tension) : Nat :=
  t.gains.length + t.losses.length

/-- How far gains and losses are from each other in number. -/
def imbalance (t : Tension) : Nat :=
  ((t.gains.length : Int) - t.losses.length).natAbs

def clearWinners (ts : List Tension) : List Tension :=
  ts.filter isClearWinner

/-- The summary of tensions: of several equally balanced alternatives the first
is named, of several equally polarizing ones the last. -/
def summarize (ts : List Tension) : TensionSummary :=
  { total := ts.length
    hasClearWinner := ts.any isClearWinner
    mostBalanced := (ts.minOn? imbalance).map Tension.alternative
    mostPolarizing := (ts.reverse.maxOn? intensity).map Tension.alternative }

end Tension

namespace Matrix

def viable (m : Matrix) (excluded : List Text) : List Text :=
  m.alternatives.filter fun a => !excluded.contains a

def tensionAmong (m : Matrix) (others : List Text) (a : Text) : Tension :=
  { alternative := a
    gains := m.objectives.filter fun o =>
      others.any fun b => decide (m.rating b o < m.rating a o)
    losses := m.objectives.filter fun o =>
      others.any fun b => decide (m.rating a o < m.rating b o) }

def tensions (m : Matrix) (excluded : List Text) : List Tension :=
  let viable := m.viable excluded
  viable.map fun a => m.tensionAmong (viable.filter (· != a)) a

def dominated (m : Matrix) : List Text :=
  m.dominations.map Domination.alternative

end Matrix

end DecisionCycle
