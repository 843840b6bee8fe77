import DecisionCycle.Matrix.Entry

/-!
Building matrices. A builder fills a matrix step by step, and whenever it is asked to it
gives out the matrix as it is then. A call that is refused leaves the builder as it was.
-/

namespace DecisionCycle

inductive BuilderCall where
  | edit (step : Edit)
  | build

/-- A matrix that is being filled, and the matrices given out so far, in order. -/
structure Builder where
  draft : Matrix
  built : List Matrix

namespace Builder

def start : Builder :=
  { draft := .empty, built := [] }

def perform (b : Builder) : BuilderCall → Except PayloadFault Builder
  | .edit step => do
    return { b with draft := ← b.draft.edit step }
  | .build => .ok { b with built := b.built ++ [b.draft] }

def next (b : Builder) (call : BuilderCall) : Builder :=
  (b.perform call).toOption.getD b

/-- The builder after calls, a refusal not stopping the next. -/
def after (b : Builder) (calls : List BuilderCall) : Builder :=
  calls.foldl next b

end Builder

end DecisionCycle
