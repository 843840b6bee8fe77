import DecisionCycle.Tension
import DecisionCycle.Value

/-!
The report on consequences and tradeoffs: scores, dominated alternatives,
irrelevant objectives, the best alternative, and the tensions between the
alternatives that are not dominated.
-/

namespace DecisionCycle

structure ConsequencesReport where
  alternatives : List Text
  objectives : List Text
  scores : Table Text Int
  best : Option Text
  dominations : List Domination
  irrelevances : List Irrelevance
  tensions : List Tension
  summary : TensionSummary

namespace ConsequencesReport

def ofMatrix (m : Matrix) : ConsequencesReport :=
  let tensions := m.tensions m.dominated
  { alternatives := m.alternatives
    objectives := m.objectives
    scores := m.scores
    best := m.best?
    dominations := m.dominations
    irrelevances := m.irrelevances
    tensions
    summary := Tension.summarize tensions }

/-- What making the report logs. -/
def records (m : Matrix) : List LogRecord :=
  let total := m.alternatives.length
  let dominated := m.dominations.length
  let counts := s!"consequences report: {total} alternatives, {dominated} dominated, best="
  m.dominationRecords ++ m.tieRecords ++
    [{ level := .debug, message := counts ++ m.best?.getD "None" }]

def namesPayload (names : List Text) : Value :=
  .list (names.map .str)

def namePayload (name : Option Text) : Value :=
  (name.map Value.str).getD .null

def dominationPayload (d : Domination) : Value :=
  .dict
    [(.str "alternative", .str d.alternative),
      (.str "dominated_by", .str d.dominator),
      (.str "explanation", .str d.explanation)]

def irrelevancePayload (i : Irrelevance) : Value :=
  .dict
    [(.str "objective", .str i.objective),
      (.str "uniform_rating", .int i.rating),
      (.str "reason", .str Irrelevance.reason)]

def tensionPayload (t : Tension) : Value :=
  .dict
    [(.str "alternative", .str t.alternative),
      (.str "gains", namesPayload t.gains),
      (.str "losses", namesPayload t.losses),
      (.str "is_clear_winner", .bool t.isClearWinner),
      (.str "has_tradeoffs", .bool t.hasTradeoffs)]

def summaryPayload (s : TensionSummary) : Value :=
  .dict
    [(.str "total_alternatives", .int s.total),
      (.str "has_clear_winner", .bool s.hasClearWinner),
      (.str "most_balanced", namePayload s.mostBalanced),
      (.str "most_polarizing", namePayload s.mostPolarizing)]

def toPayload (r : ConsequencesReport) : Value :=
  .dict
    [(.str "alternatives", namesPayload r.alternatives),
      (.str "objectives", namesPayload r.objectives),
      (.str "scores", .dict (r.scores.rows.map fun row => (.str row.1, .int row.2))),
      (.str "best_alternative", namePayload r.best),
      (.str "dominated", .list (r.dominations.map dominationPayload)),
      (.str "irrelevant_objectives", .list (r.irrelevances.map irrelevancePayload)),
      (.str "tensions", .list (r.tensions.map tensionPayload)),
      (.str "tradeoff_summary", summaryPayload r.summary)]

end ConsequencesReport

end DecisionCycle
