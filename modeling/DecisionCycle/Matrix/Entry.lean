import DecisionCycle.Matrix.Basic

/-!
Filling a matrix from values of unknown shape, step by step or from a whole
payload. Names are taken as text, and only the first of equal names counts. A
step that is refused leaves the matrix as it was.
-/

namespace DecisionCycle

inductive Edit where
  | alternatives (names : Value)
  | objectives (names : Value)
  | cell (alternative objective rating rationale : Value)

namespace Matrix

/-- The names in a value, as text and without repetition. -/
def readNames (v : Value) : Except PayloadFault (List Text) := do
  return (← (← v.items).mapM Value.written).eraseDups

def edit (m : Matrix) : Edit → Except PayloadFault Matrix
  | .alternatives names => do
    return { m with alternatives := ← readNames names }
  | .objectives names => do
    return { m with objectives := ← readNames names }
  | .cell alternative objective rating rationale => do
    let alternative ← alternative.written
    let objective ← objective.written
    return m.fill { alternative, objective, rating := ← Rating.ofPayload rating, rationale }

def editAll (m : Matrix) : List Edit → Except PayloadFault Matrix
  | [] => .ok m
  | e :: rest => do editAll (← m.edit e) rest

/-- The matrix after steps, those that are refused being left out. -/
def editLeniently (m : Matrix) (edits : List Edit) : Matrix :=
  edits.foldl (fun m e => (m.edit e).toOption.getD m) m

/-- The cell that a mapping with an alternative, an objective, a rating and
perhaps a rationale describes. -/
def readCell (v : Value) : Except PayloadFault Edit := do
  let alternative ← v.require "alternative"
  let objective ← v.require "objective"
  let rating ← v.require "rating"
  return .cell alternative objective rating (← v.field "rationale")

def fillCells (m : Matrix) : List Value → Except PayloadFault Matrix
  | [] => .ok m
  | v :: rest => do
    let e ← readCell v
    fillCells (← m.edit e) rest

def fillRow (m : Matrix) (alternative : Value) :
    List (Value × Value) → Except PayloadFault Matrix
  | [] => .ok m
  | (objective, rating) :: rest => do
    fillRow (← m.edit (.cell alternative objective rating .null)) alternative rest

/-- Fills cells from a mapping of alternatives to such mappings; a row that is
not given is empty. -/
def fillRows (m : Matrix) : List (Value × Value) → Except PayloadFault Matrix
  | [] => .ok m
  | (alternative, row) :: rest => do
    let ratings ← (row.orElse (.dict [])).entries
    fillRows (← m.fillRow alternative ratings) rest

/-- The matrix in a payload: its alternatives, its objectives and its cells, the
cells either as a list or as a mapping of mappings. What is not given is empty. -/
def ofPayload (v : Value) : Except PayloadFault Matrix := do
  let m ← empty.edit (.alternatives ((← v.field "alternatives").orElse (.list [])))
  let m ← m.edit (.objectives ((← v.field "objectives").orElse (.list [])))
  match (← v.field "cells").orElse (.list []) with
  | .dict rows => m.fillRows rows
  | cells => m.fillCells (← cells.items)

end Matrix

end DecisionCycle
