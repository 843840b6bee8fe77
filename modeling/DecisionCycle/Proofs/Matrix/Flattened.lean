import DecisionCycle.Proofs.Matrix.Told

/-!
Cells in rows, and the same cells in a list. The cells of a payload may stand in a mapping
of alternatives to mappings of objectives to ratings, some of which may not be given. Put
in a list, one after another as they stand, they make the same matrix, or are refused for
the same fault: either way the payload is read in the same steps. Only a list could add
rationales, and this one has none.
-/

namespace DecisionCycle.Matrix

def rowCells (row : Value × List (Value × Value)) : List Value :=
  row.2.map fun entry =>
    .dict [(.str "alternative", row.1), (.str "objective", entry.1), (.str "rating", entry.2)]

def flatten (rows : List (Value × Value)) : List Value :=
  rows.flatMap fun row => rowCells (row.1, rowRatings row.2)

variable {rows : List (Value × Value)} {m m' : Matrix}

/-! ### Two ways of telling the same steps -/

theorem forall₂_tellsCell_rowCells (row : Value × List (Value × Value)) :
    List.Forall₂ TellsCell (rowCells row) (rowSteps row) := by
  rw [rowCells, rowSteps, List.forall₂_map_left_iff, List.forall₂_map_right_iff, List.forall₂_same]
  intro entry _
  exact .mk rfl rfl rfl

theorem forall₂_tellsCell_flatten (rows : List (Value × Value)) :
    List.Forall₂ TellsCell (flatten rows) (rowsSteps rows) := by
  induction rows with
  | nil => exact .nil
  | cons row rows ih => exact List.rel_append (forall₂_tellsCell_rowCells _) ih

/-! ### Cells without rationales -/

def Unexplained (m : Matrix) : Prop :=
  ∀ row ∈ m.cells.rows, row.2.rationale = .null

def IsUnexplained : Edit → Prop
  | .cell _ _ _ rationale => rationale = .null
  | _ => True

theorem Unexplained.edit {e : Edit} (hm : m.Unexplained) (he : IsUnexplained e)
    (h : m.edit e = .ok m') : m'.Unexplained := by
  cases stepsTo_of_edit h with
  | alternatives _ => exact hm
  | objectives _ => exact hm
  | cell _ _ _ =>
      intro row hrow
      rcases Table.mem_rows_put hrow with rfl | hrow
      · exact he
      · exact hm row hrow

theorem isUnexplained_of_mem_rowsSteps {e : Edit} (h : e ∈ rowsSteps rows) : IsUnexplained e := by
  simp only [rowsSteps, rowSteps, List.mem_flatMap, List.mem_map] at h
  obtain ⟨row, -, entry, -, rfl⟩ := h
  rfl

/-! ### Payloads -/

variable {fields : List (Value × Value)}

def flattened (fields rows : List (Value × Value)) : List (Value × Value) :=
  Value.setEntry (.str "cells") (.list (flatten rows)) fields

theorem ofPayload_flattened (fields rows : List (Value × Value)) :
    ofPayload (.dict (flattened fields rows)) =
      empty.editAll (declarations fields ++ rowsSteps rows) := by
  have hnames : declarations (flattened fields rows) = declarations fields := by
    simp [declarations, flattened, Value.lookup?_setEntry]
  have hcells : Value.lookup? "cells" (flattened fields rows) = some (.list (flatten rows)) := by
    rw [flattened, Value.lookup?_setEntry, if_pos rfl]
  rw [ofPayload_of_listed hcells (forall₂_tellsCell_flatten rows), hnames]

theorem HasRows.unexplained (h : HasRows fields rows) (hm : ofPayload (.dict fields) = .ok m) :
    m.Unexplained := by
  rw [h.ofPayload_eq] at hm
  refine holds_of_editAll Unexplained.edit (m := empty) nofun (fun e he => ?_) hm
  rcases List.mem_append.mp he with he | he
  · simp only [declarations, List.mem_cons, List.not_mem_nil, or_false] at he
    rcases he with rfl | rfl <;> trivial
  · exact isUnexplained_of_mem_rowsSteps he

/-- What comes of a mapping with rows is what comes of it with the same cells in a list: the
names are declared, and then the cells are filled in turn, up to the first that is refused.
A matrix that comes of it has no rationales. -/
structure FlattensAlike (fields rows : List (Value × Value)) : Prop where
  alike : ofPayload (.dict (flattened fields rows)) = ofPayload (.dict fields)
  inTurn : ofPayload (.dict fields) = empty.editAll (declarations fields ++ rowsSteps rows)
  unexplained {m : Matrix} : ofPayload (.dict fields) = .ok m → m.Unexplained

/-- **Rows or a list.** A payload whose cells stand in rows is read like the payload with
the cells in a list, in the order of the rows and within each of the objectives. -/
theorem ofPayload_flattensAlike (h : HasRows fields rows) : FlattensAlike fields rows where
  alike := (ofPayload_flattened fields rows).trans h.ofPayload_eq.symm
  inTurn := h.ofPayload_eq
  unexplained := h.unexplained

/-- Two keys with one text, a row that is not given and an empty one. -/
theorem ofPayload_flattensAlike_collision :
    let rows : List (Value × Value) :=
      [(.str "A", .dict [(.int 1, .int 2), (.str "Cost", .str "-1"), (.str "1", .float (.ofInt 0))]),
        (.str "B", .null), (.int 2, .dict [])]
    let fields : List (Value × Value) :=
      [(.str "cells", .dict rows), (.str "alternatives", .list [.str "A", .str "B"])]
    HasRows fields rows ∧ FlattensAlike fields rows ∧
      (ofPayload (.dict (flattened fields rows))).toOption.map
          (fun m => m.cells.values.map fun c => (c.alternative, c.objective, c.rating)) =
        some [(("A" : Text), ("1" : Text), .same), (("A" : Text), ("Cost" : Text), .worse)] := by
  intro rows fields
  have hrows : HasRows fields rows := by
    refine ⟨rfl, fun row hrow => ?_⟩
    simp only [rows, List.mem_cons, List.not_mem_nil, or_false] at hrow
    rcases hrow with rfl | rfl | rfl
    exacts [.inl ⟨_, rfl⟩, .inr rfl, .inl ⟨_, rfl⟩]
  exact ⟨hrows, ofPayload_flattensAlike hrows, by decide +kernel⟩

end DecisionCycle.Matrix
