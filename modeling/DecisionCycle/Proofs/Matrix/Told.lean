import DecisionCycle.Proofs.Matrix.Entry
import DecisionCycle.Proofs.Payload

/-!
Payloads in good form, as the steps that they tell. The cells stand in a list of mappings,
each with an alternative, an objective and a rating, or in a mapping of alternatives to
mappings of objectives to ratings. Either way a matrix is read by taking the steps in
turn: the alternatives, the objectives, and then cell after cell. As far as the cells go
this needs no good form of the names, and a row may be missing.
-/

namespace DecisionCycle.Matrix

/-- A mapping tells a cell: it has an alternative, an objective and a rating, and perhaps a
rationale. -/
inductive TellsCell : Value → Edit → Prop where
  | mk {fields : List (Value × Value)} {alternative objective rating : Value}
      (halternative : Value.lookup? "alternative" fields = some alternative)
      (hobjective : Value.lookup? "objective" fields = some objective)
      (hrating : Value.lookup? "rating" fields = some rating) :
      TellsCell (.dict fields)
        (.cell alternative objective rating ((Value.lookup? "rationale" fields).getD .null))

def rowSteps (row : Value × List (Value × Value)) : List Edit :=
  row.2.map fun entry => .cell row.1 entry.1 entry.2 .null

/-- A value tells cells, as a list of them or in rows. -/
inductive TellsCells : Value → List Edit → Prop where
  | listed {items : List Value} {steps : List Edit} (h : List.Forall₂ TellsCell items steps) :
      TellsCells (.list items) steps
  | nested (rows : List (Value × List (Value × Value))) :
      TellsCells (.dict (rows.map fun row => (row.1, .dict row.2))) (rows.flatMap rowSteps)

/-- A payload in good form tells the steps in which a matrix is filled. -/
inductive Tells : Value → List Edit → Prop where
  | mk {fields : List (Value × Value)} {alternatives objectives : List Value} {cells : Value}
      {steps : List Edit}
      (halternatives : Value.lookup? "alternatives" fields = some (.list alternatives))
      (hobjectives : Value.lookup? "objectives" fields = some (.list objectives))
      (hcells : Value.lookup? "cells" fields = some cells) (hsteps : TellsCells cells steps) :
      Tells (.dict fields)
        (.alternatives (.list alternatives) :: .objectives (.list objectives) :: steps)

theorem readCell_of_tellsCell {v : Value} {e : Edit} (h : TellsCell v e) : readCell v = .ok e := by
  obtain ⟨halternative, hobjective, hrating⟩ := h
  simp [readCell, Value.require, Value.field, Value.fieldOr, halternative, hobjective, hrating,
    bind, Except.bind, pure, Except.pure]

theorem fillCells_eq_editAll {items : List Value} {steps : List Edit}
    (h : List.Forall₂ TellsCell items steps) (m : Matrix) :
    m.fillCells items = m.editAll steps := by
  induction h generalizing m with
  | nil => rfl
  | @cons v e items steps he _ ih =>
      rw [fillCells, editAll, readCell_of_tellsCell he]
      change (m.edit e >>= fun next => next.fillCells items) = _
      simp only [ih]

theorem fillRow_eq_editAll (alternative : Value) (ratings : List (Value × Value)) (m : Matrix) :
    m.fillRow alternative ratings = m.editAll (rowSteps (alternative, ratings)) := by
  induction ratings generalizing m with
  | nil => rfl
  | cons entry ratings ih =>
      rw [fillRow]
      simp only [ih]
      rfl

/-! ### Rows that may not be given -/

def IsRow (row : Value) : Prop :=
  (∃ ratings, row = .dict ratings) ∨ row.isGiven = false

def rowRatings : Value → List (Value × Value)
  | .dict ratings => ratings
  | _ => []

def rowsSteps (rows : List (Value × Value)) : List Edit :=
  rows.flatMap fun row => rowSteps (row.1, rowRatings row.2)

theorem entries_of_isRow {row : Value} (h : IsRow row) :
    (row.orElse (.dict [])).entries = .ok (rowRatings row) := by
  rcases h with ⟨ratings, rfl⟩ | hgap
  · exact Value.entries_orElse ratings
  · rw [Value.orElse, if_neg (by simp [hgap])]
    cases row with
    | dict ratings =>
        obtain rfl : ratings = [] := by simpa [Value.isGiven] using hgap
        rfl
    | _ => rfl

theorem fillRows_eq_editAll {rows : List (Value × Value)} (h : ∀ row ∈ rows, IsRow row.2)
    (m : Matrix) :
    m.fillRows rows = m.editAll (rowsSteps rows) := by
  induction rows generalizing m with
  | nil => rfl
  | cons row rows ih =>
      obtain ⟨hrow, hrest⟩ := List.forall_mem_cons.mp h
      rw [fillRows, entries_of_isRow hrow, ok_bind, rowsSteps, List.flatMap_cons, editAll_append,
        ← fillRow_eq_editAll]
      simp only [ih hrest]
      rfl

theorem rowsSteps_map_dict (rows : List (Value × List (Value × Value))) :
    rowsSteps (rows.map fun row => (row.1, .dict row.2)) = rows.flatMap rowSteps := by
  rw [rowsSteps, List.flatMap_map]
  rfl

/-! ### Payloads -/

variable {fields : List (Value × Value)}

def declarations (fields : List (Value × Value)) : List Edit :=
  [.alternatives (((Value.lookup? "alternatives" fields).getD .null).orElse (.list [])),
    .objectives (((Value.lookup? "objectives" fields).getD .null).orElse (.list []))]

def fillGiven (m : Matrix) : Value → Except PayloadFault Matrix
  | .dict rows => m.fillRows rows
  | cells => cells.items >>= m.fillCells

theorem ofPayload_dict (fields : List (Value × Value)) :
    ofPayload (.dict fields) = (empty.editAll (declarations fields) >>= fun m =>
      m.fillGiven (((Value.lookup? "cells" fields).getD .null).orElse (.list []))) := by
  rw [ofPayload]
  simp only [Value.field, Value.fieldOr, ok_bind, declarations, editAll, bind_assoc]
  rfl

theorem ofPayload_of_listed {items : List Value} {steps : List Edit}
    (hcells : Value.lookup? "cells" fields = some (.list items))
    (hsteps : List.Forall₂ TellsCell items steps) :
    ofPayload (.dict fields) = empty.editAll (declarations fields ++ steps) := by
  have hgiven (m : Matrix) :
      m.fillGiven ((Value.list items).orElse (.list [])) = m.editAll steps := by
    rw [Value.orElse_list, ← fillCells_eq_editAll hsteps]
    rfl
  rw [ofPayload_dict, hcells, editAll_append]
  simp only [Option.getD_some, hgiven]

structure HasRows (fields rows : List (Value × Value)) : Prop where
  cells : Value.lookup? "cells" fields = some (.dict rows)
  isRow : ∀ row ∈ rows, IsRow row.2

theorem HasRows.ofPayload_eq {rows : List (Value × Value)} (h : HasRows fields rows) :
    ofPayload (.dict fields) = empty.editAll (declarations fields ++ rowsSteps rows) := by
  have hgiven (m : Matrix) :
      m.fillGiven ((Value.dict rows).orElse (.list [])) = m.editAll (rowsSteps rows) := by
    rw [← fillRows_eq_editAll h.isRow]
    -- a mapping without rows counts as not given, and an empty list is read in its place
    cases rows <;> rfl
  rw [ofPayload_dict, h.cells, editAll_append]
  simp only [Option.getD_some, hgiven]

theorem ofPayload_eq_editAll {v : Value} {steps : List Edit} (h : Tells v steps) :
    ofPayload v = empty.editAll steps := by
  obtain @⟨fields, alternatives, objectives, cells, steps, halternatives, hobjectives, hcells,
    hsteps⟩ := h
  have hnames : declarations fields =
      [.alternatives (.list alternatives), .objectives (.list objectives)] := by
    simp [declarations, halternatives, hobjectives, Value.orElse_list]
  cases hsteps with
  | listed h =>
      rw [ofPayload_of_listed hcells h, hnames]
      rfl
  | nested rows =>
      have hrows : HasRows fields (rows.map fun row => (row.1, .dict row.2)) := by
        refine ⟨hcells, fun row hrow => ?_⟩
        obtain ⟨row, -, rfl⟩ := List.mem_map.mp hrow
        exact .inl ⟨row.2, rfl⟩
      rw [hrows.ofPayload_eq, hnames, rowsSteps_map_dict]
      rfl

end DecisionCycle.Matrix
