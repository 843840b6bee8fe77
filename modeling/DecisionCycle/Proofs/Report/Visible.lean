import DecisionCycle.Proofs.Matrix.Alike
import DecisionCycle.Report.Consequences

/-!
What a report on consequences can see of a matrix: the declared names and the ratings on
these, nothing else. Cells of other names, cells that hold the rating of an empty one,
rationales, and the order in which the cells were entered leave no trace in it, nor in
what is logged while it is made.
-/

namespace DecisionCycle

namespace Matrix

/-- A change of the cells that is not a change of the ratings. -/
inductive HiddenChange (m : Matrix) : Matrix → Prop where
  | undeclared (c : Cell) (h : c.alternative ∉ m.alternatives ∨ c.objective ∉ m.objectives) :
      HiddenChange m (m.fill c)
  /-- An empty cell is filled with the rating that it counts as. -/
  | baseline (c : Cell) (hempty : m.cell? c.alternative c.objective = none)
      (hrating : c.rating.value = Rating.missing) : HiddenChange m (m.fill c)
  | rationale (old new : Cell) (hfilled : m.cell? new.alternative new.objective = some old)
      (hrating : new.rating = old.rating) : HiddenChange m (m.fill new)
  | order (cells : Table (Text × Text) Cell) (hperm : cells.rows.Perm m.cells.rows)
      (honce : m.cells.keys.Nodup) : HiddenChange m { m with cells }

variable {m m' : Matrix}

theorem HiddenChange.alternatives_eq (h : HiddenChange m m') :
    m'.alternatives = m.alternatives := by
  cases h <;> rfl

/-- To fill a cell leaves the ratings as they are if the cell belongs to a name that is not
declared or had that rating before. -/
theorem ratesAlike_fill {c : Cell}
    (h : c.alternative ∈ m.alternatives → c.objective ∈ m.objectives →
      c.rating.value = m.rating c.alternative c.objective) : m.RatesAlike (m.fill c) where
  objectives := rfl
  rating {a o} ha ho := by
    rw [rating_fill]
    split
    · rename_i hsame
      cases hsame
      exact h ha ho
    · rfl

theorem HiddenChange.ratesAlike (h : HiddenChange m m') : m.RatesAlike m' := by
  cases h with
  | undeclared c h =>
      exact ratesAlike_fill fun ha ho => absurd h (not_or.mpr ⟨not_not.mpr ha, not_not.mpr ho⟩)
  | baseline c hempty hrating =>
      refine ratesAlike_fill fun _ _ => ?_
      rw [hrating, rating, hempty]
      rfl
  | rationale old new hfilled hrating =>
      refine ratesAlike_fill fun _ _ => ?_
      rw [hrating, rating, hfilled]
      rfl
  | order cells hperm honce =>
      refine ⟨rfl, fun {a o} _ _ => ?_⟩
      have hcell : cells.get? (a, o) = m.cells.get? (a, o) := Table.get?_eq_of_perm hperm honce _
      rw [rating, rating, cell?, cell?, hcell]

end Matrix

namespace ConsequencesReport

variable {m m' : Matrix}

theorem ofMatrix_eq (h : m.RatesAlike m') (halternatives : m'.alternatives = m.alternatives) :
    ofMatrix m' = ofMatrix m := by
  have hdominations := h.dominations_eq halternatives
  have hdominated : m'.dominated = m.dominated := by
    rw [Matrix.dominated, Matrix.dominated, hdominations]
  rw [ofMatrix, ofMatrix, halternatives, h.objectives, h.scores_eq halternatives,
    h.best?_eq halternatives, hdominations, h.irrelevances_eq halternatives, hdominated,
    h.tensions_eq halternatives]

theorem records_eq (h : m.RatesAlike m') (halternatives : m'.alternatives = m.alternatives) :
    records m' = records m := by
  simp only [records, Matrix.dominationRecords, Matrix.tieRecords, halternatives,
    h.dominations_eq halternatives, h.topScore?_eq halternatives, h.leaders_eq halternatives,
    h.best?_eq halternatives]

/-- **A report shows names and ratings only.** Matrices that declare the same names and rate
them alike have the same report, and so have matrices that hidden changes of their cells, made
or taken back, lead from one to the other. -/
theorem ofMatrix_showsRatings (m : Matrix) :
    (∀ m', m'.alternatives = m.alternatives → m.RatesAlike m' →
        ofMatrix m' = ofMatrix m ∧ records m' = records m) ∧
      ∀ m', Relation.EqvGen Matrix.HiddenChange m m' →
        ofMatrix m' = ofMatrix m ∧ records m' = records m := by
  refine ⟨fun m' halternatives h => ⟨ofMatrix_eq h halternatives, records_eq h halternatives⟩,
    fun m' hchanges => ?_⟩
  induction hchanges with
  | rel m m' hchange =>
      have h := hchange.ratesAlike
      exact ⟨ofMatrix_eq h hchange.alternatives_eq, records_eq h hchange.alternatives_eq⟩
  | refl m => exact ⟨rfl, rfl⟩
  | symm m m' _ ih => exact ⟨ih.1.symm, ih.2.symm⟩
  | trans m₁ m₂ m₃ _ _ ih ih' => exact ⟨ih'.1.trans ih.1, ih'.2.trans ih.2⟩

theorem ofMatrix_showsRatings_otherCells :
    let cell (a o : Text) (r : Rating) (why : Value) : Cell :=
      { alternative := a, objective := o, rating := r, rationale := why }
    let start : Matrix :=
      { alternatives := ["A", "B"], objectives := ["Cost", "Speed"], cells := Table.empty }
    let m := (start.fill (cell "A" "Cost" .better .null)).fill (cell "B" "Speed" .worse .null)
    let m' := (((start.fill (cell "C" "Cost" .muchBetter .null)).fill
      (cell "B" "Speed" .worse .null)).fill (cell "B" "Cost" .same .null)).fill
      (cell "A" "Cost" .better (.str "cheap"))
    m'.alternatives = m.alternatives ∧ m.RatesAlike m' ∧ m'.cells.keys ≠ m.cells.keys ∧
      ofMatrix m' = ofMatrix m ∧ records m' = records m := by
  intro cell start m m'
  have hrating : ∀ a ∈ m.alternatives, ∀ o ∈ m.objectives, m'.rating a o = m.rating a o := by
    decide +kernel
  have hrates : m.RatesAlike m' := ⟨rfl, fun ha ho => hrating _ ha _ ho⟩
  exact ⟨rfl, hrates, by decide +kernel, (ofMatrix_showsRatings m).1 m' rfl hrates⟩

end ConsequencesReport

end DecisionCycle
