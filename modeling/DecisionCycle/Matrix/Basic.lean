import DecisionCycle.Rating
import DecisionCycle.Table

/-!
The ratings matrix: alternatives against objectives, with a rating in each cell
that has been filled. An empty cell counts as the baseline, so a matrix can be
analysed while it is still being filled. The order of declaration is the order
of everything computed from the matrix.
-/

namespace DecisionCycle

structure Cell where
  alternative : Text
  objective : Text
  rating : Rating
  rationale : Value

/-- Declared alternatives and objectives, and the cells filled so far. Cells may
belong to names that are not declared; these count for nothing. -/
structure Matrix where
  alternatives : List Text
  objectives : List Text
  cells : Table (Text × Text) Cell

namespace Matrix

def empty : Matrix :=
  { alternatives := [], objectives := [], cells := Table.empty }

def isEmpty (m : Matrix) : Bool :=
  m.alternatives.isEmpty

def cell? (m : Matrix) (alternative objective : Text) : Option Cell :=
  m.cells.get? (alternative, objective)

def rating (m : Matrix) (alternative objective : Text) : Int :=
  ((m.cell? alternative objective).map fun c => c.rating.value).getD Rating.missing

def row (m : Matrix) (alternative : Text) : List Int :=
  m.objectives.map (m.rating alternative)

def score (m : Matrix) (alternative : Text) : Int :=
  (m.row alternative).foldr (· + ·) 0

def scores (m : Matrix) : Table Text Int :=
  Table.ofList (m.alternatives.map fun a => (a, m.score a))

/-- The matrix with a cell filled, in place of an earlier filling. -/
def fill (m : Matrix) (c : Cell) : Matrix :=
  { m with cells := m.cells.put (c.alternative, c.objective) c }

theorem rating_fill (m : Matrix) (c : Cell) (a o : Text) :
    (m.fill c).rating a o =
      if (a, o) = (c.alternative, c.objective) then c.rating.value else m.rating a o := by
  rw [rating, cell?, fill, Table.get?_put]
  split <;> rfl

end Matrix

end DecisionCycle
