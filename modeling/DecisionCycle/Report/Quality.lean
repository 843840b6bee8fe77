import DecisionCycle.Quality

/-!
The report on decision quality: the overall score with its priority, what is
missing, the weakest element, and the elements in the order in which they should
be improved.
-/

namespace DecisionCycle

/-- The analysis of scored elements. -/
structure QualityReport where
  overall : Score
  priority : Priority
  isAcceptable : Bool
  isComplete : Bool
  missing : List String
  weakest : Option Text
  elements : List Element

namespace QualityReport

def ofElements (es : List Element) : QualityReport :=
  { overall := Element.overall es
    priority := .ofScore (Element.overall es)
    isAcceptable := Element.isAcceptable es
    isComplete := Element.isComplete es
    missing := Element.missing es
    weakest := (Element.weakest? es).map Element.name
    elements := Element.byPriority es }

def toPayload (r : QualityReport) : Value :=
  .dict
    [(.str "overall_score", .int r.overall.val),
      (.str "overall_priority", .str r.priority.name),
      (.str "is_acceptable", .bool r.isAcceptable),
      (.str "has_all_elements", .bool r.isComplete),
      (.str "missing_elements", .list (r.missing.map fun name => .str (name : String))),
      (.str "weakest_element", (r.weakest.map Value.str).getD .null),
      (.str "elements", .list (r.elements.map Element.toPayload))]

end QualityReport

end DecisionCycle
