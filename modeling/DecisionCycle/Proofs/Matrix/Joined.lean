import DecisionCycle.Proofs.Matrix.Alike
import DecisionCycle.Proofs.Matrix.Trail

/-!
One more alternative. When an alternative joins a matrix that is being filled, what was
found before stands: the scores, and every entry of a dominated alternative word for word,
since the first dominator in the order of declaration is still the first. The newcomer can
be dominated, and it can dominate whom nobody did; it can be the best alternative or level
with it; and it can tell alternatives apart on an objective where they were all alike.
Nothing else changes.
-/

namespace DecisionCycle.Matrix

/-- The second matrix declares one alternative more, after those of the first, and rates
these as the first does. -/
structure Joins (x : Text) (m m' : Matrix) : Prop extends m.RatesAlike m' where
  alternatives : m'.alternatives = m.alternatives ++ [x]
  fresh : x ∉ m.alternatives

namespace Joins

variable {m m' : Matrix} {x : Text} (h : Joins x m m')

include h

theorem ne {a : Text} (ha : a ∈ m.alternatives) : a ≠ x :=
  fun hax => h.fresh (hax ▸ ha)

theorem mem_alternatives_iff {a : Text} :
    a ∈ m'.alternatives ↔ a ∈ m.alternatives ∨ a = x := by
  simp [h.alternatives]

/-! ### Scores -/

theorem rows_scores : m'.scores.rows = m.scores.rows ++ [(x, m'.score x)] := by
  rw [Matrix.rows_scores, Matrix.rows_scores, h.alternatives, eraseDups_concat, if_neg h.fresh,
    List.map_append, List.map_singleton]
  refine congrArg (· ++ _) (List.map_congr_left fun a ha => ?_)
  rw [h.score_eq (List.mem_eraseDups.mp ha)]

theorem best?_of_ne {a : Text} (hbest : m'.best? = some a) (hne : a ≠ x) :
    m.best? = some a := by
  rw [best?_eq_some_iff_score_lt] at hbest ⊢
  obtain ⟨ha, hlt⟩ := hbest
  have ha : a ∈ m.alternatives := (h.mem_alternatives_iff.mp ha).resolve_right hne
  refine ⟨ha, fun b hb hba => ?_⟩
  rw [← h.score_eq ha, ← h.score_eq hb]
  exact hlt b (h.mem_alternatives_iff.mpr (.inl hb)) hba

theorem best?_cases : m'.best? = m.best? ∨ m'.best? = some x ∨ m'.best? = none := by
  cases hbest : m'.best? with
  | none => exact .inr (.inr rfl)
  | some a =>
      by_cases hax : a = x
      · exact .inr (.inl (congrArg some hax))
      · exact .inl (h.best?_of_ne hbest hax).symm

/-! ### Dominated alternatives -/

theorem dominator?_eq {b : Text} (hb : b ∈ m.alternatives) :
    m'.dominator? b = (m.dominator? b).or (if m'.dominates x b then some x else none) := by
  have hbefore : (m.alternatives.find? fun a => a != b && m'.dominates a b) = m.dominator? b :=
    List.find?_congr fun a ha => by rw [h.dominates_eq ha hb]
  have hxb : (x != b) = true := bne_iff_ne.mpr (h.ne hb).symm
  rw [dominator?, h.alternatives, List.find?_append, hbefore]
  by_cases hdom : m'.dominates x b = true <;> simp [hxb, hdom]

theorem filter_dominations :
    (m'.dominations.filter fun d => d.alternative ≠ x ∧ d.dominator ≠ x) = m.dominations := by
  rw [dominations, dominations, h.alternatives, List.filter_filterMap, List.filterMap_append]
  -- the entry of the newcomer itself, should there be one, is left out
  have hnew : (List.filterMap (fun b => Option.filter
      (fun d : Domination => decide (d.alternative ≠ x ∧ d.dominator ≠ x))
      ((m'.dominator? b).map fun a => ⟨b, a, m'.betterOn a b⟩)) [x]) = [] := by
    cases hd : m'.dominator? x <;> simp [hd]
  rw [hnew, List.append_nil]
  refine List.filterMap_congr fun b hb => ?_
  have hbx := h.ne hb
  rw [h.dominator?_eq hb]
  cases hd : m.dominator? b with
  | some a =>
      have ha : a ∈ m.alternatives := (dominator?_eq_some hd).1
      simp [hbx, h.ne ha, h.betterOn_eq ha hb]
  | none => split <;> simp

theorem mem_dominations_or {d : Domination} (hd : d ∈ m'.dominations) :
    d ∈ m.dominations ∨ d.alternative = x ∨ d.dominator = x := by
  by_cases hx : d.alternative = x ∨ d.dominator = x
  · exact .inr hx
  · rw [← h.filter_dominations, List.mem_filter]
    exact .inl ⟨hd, decide_eq_true (not_or.mp hx)⟩

/-! ### Irrelevant objectives -/

theorem uniformRating?_eq (hne : m.alternatives ≠ []) {o : Text} (ho : o ∈ m.objectives) :
    m'.uniformRating? o = (m.uniformRating? o).filter fun r => m'.rating x o = r := by
  ext r
  rw [uniformRating?_eq_some_iff, Option.filter_eq_some_iff, uniformRating?_eq_some_iff,
    h.alternatives, List.forall_mem_append, List.forall_mem_singleton, decide_eq_true_iff]
  have hsame : (∀ a ∈ m.alternatives, m'.rating a o = r) ↔ ∀ a ∈ m.alternatives, m.rating a o = r :=
    forall₂_congr fun a ha => by rw [h.rating ha ho]
  rw [hsame]
  simp [hne]

/-- Where there were alternatives to compare, an objective remains irrelevant if the
newcomer has the uniform rating as well, and no other one becomes so. -/
theorem irrelevances_eq (htwo : 2 ≤ m.alternatives.length) :
    m'.irrelevances = m.irrelevances.filter fun i => m'.rating x i.objective = i.rating := by
  have hfew : ¬m.alternatives.length < 2 := not_lt.mpr htwo
  have hfew' : ¬m'.alternatives.length < 2 := by
    rw [h.alternatives, List.length_append]
    omega
  have hne : m.alternatives ≠ [] := List.ne_nil_of_length_pos (by omega)
  rw [irrelevances, irrelevances, if_neg hfew, if_neg hfew', h.objectives, List.filter_filterMap]
  refine List.filterMap_congr fun o ho => ?_
  rw [h.uniformRating?_eq hne ho]
  cases m.uniformRating? o with
  | none => rfl
  | some r => by_cases hr : m'.rating x o = r <;> simp [Option.filter, hr]

end Joins

/-- What is still true of the alternatives of a matrix after `x` has joined them. -/
structure OutlastedBy (m m' : Matrix) (x : Text) : Prop where
  scores : m'.scores.rows = m.scores.rows ++ [(x, m'.score x)]
  kept : m.dominations.Sublist m'.dominations
  added {d : Domination} :
    d ∈ m'.dominations → d ∉ m.dominations → d.alternative = x ∨ d.dominator = x
  best : m'.best? = m.best? ∨ m'.best? = some x ∨ m'.best? = none
  irrelevances : 2 ≤ m.alternatives.length → ∀ i ∈ m'.irrelevances, i ∈ m.irrelevances

/-- **A newcomer leaves the others as they were.** Their scores and their entries stay as they
are; whoever is newly dominated is dominated by the newcomer or is it; the best alternative
can only give way to the newcomer or to a tie; and no objective becomes irrelevant. -/
theorem joins_outlasted {m m' : Matrix} {x : Text} (h : Joins x m m') : m.OutlastedBy m' x where
  scores := h.rows_scores
  kept := by
    rw [← h.filter_dominations]
    exact List.filter_sublist
  added hd hnew := (h.mem_dominations_or hd).resolve_left hnew
  best := h.best?_cases
  irrelevances htwo i hi := by
    rw [h.irrelevances_eq htwo] at hi
    exact List.mem_of_mem_filter hi

/-- The entry of B stands although D dominates B as well. D brings one new entry, that of C,
becomes the best alternative, and tells the others apart where they were all alike. -/
theorem joins_outlasted_fourth :
    let cell (a o : Text) (r : Rating) : Cell :=
      { alternative := a, objective := o, rating := r, rationale := .null }
    let start : Matrix :=
      { alternatives := ["A", "B", "C"], objectives := ["Cost", "Speed", "Color"]
        cells := Table.empty }
    let m := (start.fill (cell "A" "Cost" .better)).fill (cell "C" "Speed" .better)
    let m' := { (m.fill (cell "D" "Speed" .muchBetter)).fill (cell "D" "Color" .better) with
      alternatives := ["A", "B", "C", "D"] }
    Joins "D" m m' ∧ m.dominations = [⟨"B", "A", ["Cost"]⟩] ∧
      m'.dominations = [⟨"B", "A", ["Cost"]⟩, ⟨"C", "D", ["Speed", "Color"]⟩] ∧
      m.irrelevances = [⟨"Color", 0⟩] ∧ m'.irrelevances = [] ∧ m.best? = none ∧
      m'.best? = some ("D" : Text) ∧ m.OutlastedBy m' "D" := by
  intro cell start m m'
  have hrating : ∀ a ∈ m.alternatives, ∀ o ∈ m.objectives, m'.rating a o = m.rating a o := by
    decide +kernel
  have hjoins : Joins "D" m m' := ⟨⟨rfl, fun ha ho => hrating _ ha _ ho⟩, rfl, by decide +kernel⟩
  exact ⟨hjoins, by decide +kernel, by decide +kernel, by decide +kernel, by decide +kernel,
    by decide +kernel, by decide +kernel, joins_outlasted hjoins⟩

end DecisionCycle.Matrix
