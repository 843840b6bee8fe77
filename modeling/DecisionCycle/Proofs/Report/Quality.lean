import DecisionCycle.Proofs.Payload
import DecisionCycle.Proofs.Quality.Order
import DecisionCycle.Report.Quality

/-!
A report on decision quality agrees with itself. Its parts are computed apart from each
other: the least score, the weakest element, the sorted elements, the priorities, the
verdict and the missing names. Yet the first of the sorted elements is the weakest one and
has the overall score and the overall priority, the elements after it are less and less
urgent, and the verdict can be read off the overall score.
-/

namespace DecisionCycle.QualityReport

/-- How the parts of a report on elements hang together. -/
structure Consistent (r : QualityReport) (es : List Element) : Prop where
  rearranged : r.elements.Perm es
  ascending : r.elements.Pairwise fun a b => a.score ≤ b.score
  stable (s : Score) :
    r.elements.filter (fun e => e.score = s) = es.filter fun e => e.score = s
  least : es ≠ [] → (∃ e ∈ es, e.score = r.overall) ∧ ∀ e ∈ es, r.overall ≤ e.score
  leastOfNone : es = [] → r.overall = 0
  overallFirst : es ≠ [] → r.elements.head?.map Element.score = some r.overall
  weakest : r.weakest = (es.find? fun e => e.score = r.overall).map Element.name
  weakestFirst : r.weakest = r.elements.head?.map Element.name
  priorityFirst : es ≠ [] → r.elements.head?.map Element.priority = some r.priority
  priorityOfNone : es = [] → r.priority = .critical
  lessUrgent : r.elements.Pairwise fun a b => a.priority.rank ≤ b.priority.rank
  acceptable : r.isAcceptable = true ↔ es ≠ [] ∧ 80 ≤ r.overall.val
  missingInOrder : r.missing.Sublist Element.standardNames
  missing {name : String} :
    name ∈ r.missing ↔ name ∈ Element.standardNames ∧ ∀ e ∈ es, e.name ≠ (name : Text)
  complete : r.isComplete = true ↔ r.missing = []

/-- A payload shows the parts of a report, and the elements one by one. -/
structure Shows (r : QualityReport) (payload : Value) : Prop where
  overall : payload.field "overall_score" = .ok (.int r.overall.val)
  priority : payload.field "overall_priority" = .ok (.str r.priority.name)
  acceptable : payload.field "is_acceptable" = .ok (.bool r.isAcceptable)
  complete : payload.field "has_all_elements" = .ok (.bool r.isComplete)
  missing : payload.field "missing_elements" =
    .ok (.list (r.missing.map fun name => .str (name : String)))
  weakest : payload.field "weakest_element" = .ok ((r.weakest.map Value.str).getD .null)
  elements : payload.field "elements" = .ok (.list (r.elements.map Element.toPayload))
  names : payload.column "elements" "name" = .ok (r.elements.map fun e => .str e.name)
  scores : payload.column "elements" "score" = .ok (r.elements.map fun e => .int e.score.val)
  priorities : payload.column "elements" "priority" =
    .ok (r.elements.map fun e => .str e.priority.name)

theorem field_elements (r : QualityReport) :
    r.toPayload.field "elements" = .ok (.list (r.elements.map Element.toPayload)) := rfl

theorem shows_toPayload (r : QualityReport) : r.Shows r.toPayload where
  overall := rfl
  priority := rfl
  acceptable := rfl
  complete := rfl
  missing := rfl
  weakest := rfl
  elements := r.field_elements
  names := Value.column_eq_ok r.field_elements fun _ => rfl
  scores := Value.column_eq_ok r.field_elements fun _ => rfl
  priorities := Value.column_eq_ok r.field_elements fun _ => rfl

theorem head?_score_ofElements {es : List Element} (hne : es ≠ []) :
    (Element.byPriority es).head?.map Element.score = some (Element.overall es) := by
  rw [Element.head?_byPriority]
  obtain ⟨e, he, hscore⟩ := Element.exists_overall hne
  obtain ⟨first, hfirst⟩ :
      ∃ first, (es.find? fun e => e.score = Element.overall es) = some first :=
    Option.isSome_iff_exists.mp (List.find?_isSome.mpr ⟨e, he, decide_eq_true hscore⟩)
  have hleast : first.score = Element.overall es := by
    simpa using List.find?_some hfirst
  rw [hfirst, Option.map_some, hleast]

/-- **A report on quality is consistent**, whatever the elements, and its payload shows it. -/
theorem ofElements_consistent (es : List Element) :
    (ofElements es).Consistent es ∧ (ofElements es).Shows (ofElements es).toPayload := by
  have hsorted := Element.pairwise_byPriority es
  refine ⟨?_, shows_toPayload _⟩
  constructor
  case rearranged => exact Element.byPriority_perm es
  case ascending => exact hsorted
  case stable => exact Element.filter_byPriority es
  case least => exact fun hne => ⟨Element.exists_overall hne, fun _ => Element.overall_le⟩
  case leastOfNone =>
    rintro rfl
    rfl
  case overallFirst => exact head?_score_ofElements
  case weakest => exact congrArg (Option.map Element.name) (Element.weakest?_eq_find? es)
  case weakestFirst => exact congrArg (Option.map Element.name) (Element.weakest?_eq_head? es)
  case priorityFirst =>
    intro hne
    have hfirst := congrArg (Option.map Priority.ofScore) (head?_score_ofElements hne)
    rwa [Option.map_map] at hfirst
  case priorityOfNone =>
    rintro rfl
    rfl
  case lessUrgent => exact hsorted.imp Priority.rank_ofScore_le
  case acceptable => exact Element.isAcceptable_iff
  case missingInOrder => exact List.filter_sublist
  case missing => exact Element.mem_missing_iff
  case complete => exact List.isEmpty_iff

end DecisionCycle.QualityReport
