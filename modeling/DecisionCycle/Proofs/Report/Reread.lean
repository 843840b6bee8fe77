import DecisionCycle.CommandLine.Program
import DecisionCycle.Proofs.Quality.RoundTrip

/-!
Reading a report on quality again. A report lists its elements under the name under which
elements are looked for, so a report can be put in the place of the elements that it is
about. The report on these is the same one, but for ways of improvement that do not count
as given; and once these are nothing, reading the report gives exactly the report.
-/

namespace DecisionCycle.QualityReport

def ofPayload? (v : Value) : Option (Except PayloadFault QualityReport) :=
  (CommandLine.elementItems? v).map fun items => (items.mapM Element.ofPayload).map ofElements

def reread (r : QualityReport) : QualityReport :=
  { r with elements := r.elements.map Element.reread }

@[simp] theorem reread_reread (r : QualityReport) : r.reread.reread = r.reread := by
  simp [reread, Function.comp_def]

theorem elementItems?_toPayload (r : QualityReport) :
    CommandLine.elementItems? r.toPayload = some (r.elements.map Element.toPayload) := rfl

/-- In the place of the elements, the first report stands for those of the second: it is
the second one that is read and printed. -/
structure ReadsAs (r r' : QualityReport) : Prop where
  read : ofPayload? r.toPayload = some (.ok r')
  printed : ∃ records, CommandLine.runQuality r.toPayload = .printed records r'.toPayload

theorem readsAs_elements (r : QualityReport) : r.ReadsAs (ofElements r.reread.elements) where
  read := by
    rw [ofPayload?, elementItems?_toPayload, Option.map_some, Element.mapM_ofPayload_toPayload]
    rfl
  printed := by
    rw [CommandLine.runQuality, elementItems?_toPayload]
    dsimp only
    rw [Element.mapM_ofPayload_toPayload]
    exact ⟨_, rfl⟩

theorem ofElements_elements_reread (es : List Element) :
    ofElements (ofElements es).reread.elements = (ofElements es).reread := by
  -- a report lists its elements by priority, so sorting them again does nothing
  have hsorted : Element.byPriority ((Element.byPriority es).map Element.reread) =
      (Element.byPriority es).map Element.reread := by
    rw [Element.byPriority_map Element.score_reread, Element.byPriority_byPriority]
  have hscores : (((Element.byPriority es).map Element.reread).map Element.score).Perm
      (es.map Element.score) := by
    rw [List.map_map]
    exact (Element.byPriority_perm es).map Element.score
  have hnames : (((Element.byPriority es).map Element.reread).map Element.name).Perm
      (es.map Element.name) := by
    rw [List.map_map]
    exact (Element.byPriority_perm es).map Element.name
  have hweakest : (Element.weakest? ((Element.byPriority es).map Element.reread)).map Element.name =
      (Element.weakest? es).map Element.name := by
    rw [Element.weakest?_eq_head?, hsorted, Element.weakest?_eq_head?, List.head?_map,
      Option.map_map]
    rfl
  change ofElements ((Element.byPriority es).map Element.reread) =
    { ofElements es with elements := (Element.byPriority es).map Element.reread }
  simp only [ofElements, Element.isComplete, hsorted, hweakest, Element.overall_eq_of_perm hscores,
    Element.isAcceptable_eq_of_perm hscores, Element.missing_eq_of_perm hnames]

/-- **A report is read as itself.** What is read from the report on any elements, and
printed for it, is that report with its elements reread, and reading that one again
changes nothing. -/
theorem ofElements_readsAs (es : List Element) :
    (ofElements es).ReadsAs (ofElements es).reread ∧
      (ofElements es).reread.ReadsAs (ofElements es).reread := by
  have hfirst := readsAs_elements (ofElements es)
  have hagain := readsAs_elements (ofElements es).reread
  rw [ofElements_elements_reread] at hfirst
  rw [reread_reread, ofElements_elements_reread] at hagain
  exact ⟨hfirst, hagain⟩

end DecisionCycle.QualityReport
