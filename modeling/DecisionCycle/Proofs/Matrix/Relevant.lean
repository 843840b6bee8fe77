import DecisionCycle.Proofs.Matrix.Score
import DecisionCycle.Proofs.Matrix.Tension

/-!
The matrix without its irrelevant objectives. On these all alternatives are rated
alike, so none is better there than another, and whatever is decided by who is better
where stays as it is: the entries of dominated alternatives word for word, and the
tensions. Every score loses the same amount, the sum of the uniform ratings, which
leaves the best alternative in its place.
-/

namespace DecisionCycle.Matrix

def irrelevant (m : Matrix) : List Text :=
  m.irrelevances.map Irrelevance.objective

def relevant (m : Matrix) : Matrix :=
  { m with objectives := m.objectives.filter fun o => !m.irrelevant.contains o }

@[simp] theorem alternatives_relevant (m : Matrix) : m.relevant.alternatives = m.alternatives := rfl

variable {m : Matrix}

theorem mem_objectives_relevant {o : Text} :
    o ∈ m.relevant.objectives ↔ o ∈ m.objectives ∧ o ∉ m.irrelevant := by
  simp [relevant]

theorem not_mem_irrelevant_of_lt {a b o : Text} (ha : a ∈ m.alternatives)
    (hb : b ∈ m.alternatives) (hlt : m.rating b o < m.rating a o) : o ∉ m.irrelevant := by
  intro hmem
  obtain ⟨i, hi, rfl⟩ := List.mem_map.mp hmem
  obtain ⟨-, -, hsame⟩ := mem_irrelevances.mp hi
  rw [hsame a ha, hsame b hb] at hlt
  exact lt_irrefl _ hlt

theorem filter_objectives_relevant {p : Text → Bool}
    (hp : ∀ o, p o = true → ∃ a ∈ m.alternatives, ∃ b ∈ m.alternatives,
      m.rating b o < m.rating a o) :
    m.relevant.objectives.filter p = m.objectives.filter p := by
  change (m.objectives.filter _).filter p = _
  rw [List.filter_filter]
  refine List.filter_congr fun o _ => ?_
  cases ho : p o with
  | false => rfl
  | true =>
      obtain ⟨a, ha, b, hb, hlt⟩ := hp o ho
      simp [not_mem_irrelevant_of_lt ha hb hlt]

/-! ### Who is better where -/

theorem betterOn_relevant {a b : Text} (ha : a ∈ m.alternatives) (hb : b ∈ m.alternatives) :
    m.relevant.betterOn a b = m.betterOn a b :=
  filter_objectives_relevant fun _ ho => ⟨a, ha, b, hb, of_decide_eq_true ho⟩

theorem dominations_relevant (m : Matrix) : m.relevant.dominations = m.dominations :=
  dominations_congr m.alternatives_relevant fun _ ha _ hb => betterOn_relevant ha hb

theorem tensionAmong_relevant {others : List Text} {a : Text} (ha : a ∈ m.alternatives)
    (hothers : ∀ b ∈ others, b ∈ m.alternatives) :
    m.relevant.tensionAmong others a = m.tensionAmong others a := by
  refine congrArg₂ (Tension.mk a) (filter_objectives_relevant fun o ho => ?_)
    (filter_objectives_relevant fun o ho => ?_)
  · obtain ⟨b, hb, hlt⟩ := List.any_eq_true.mp ho
    exact ⟨a, ha, b, hothers b hb, of_decide_eq_true hlt⟩
  · obtain ⟨b, hb, hlt⟩ := List.any_eq_true.mp ho
    exact ⟨b, hothers b hb, a, ha, of_decide_eq_true hlt⟩

theorem tensions_relevant (m : Matrix) (excluded : List Text) :
    m.relevant.tensions excluded = m.tensions excluded := by
  have hdeclared : ∀ a ∈ m.viable excluded, a ∈ m.alternatives := fun a ha => (mem_viable.mp ha).1
  refine List.map_congr_left fun a ha => tensionAmong_relevant (hdeclared a ha) fun b hb => ?_
  exact hdeclared b (List.mem_of_mem_filter hb)

/-! ### What is left out -/

theorem irrelevances_relevant (m : Matrix) : m.relevant.irrelevances = [] := by
  refine List.eq_nil_iff_forall_not_mem.mpr fun i hi => ?_
  obtain ⟨htwo, ho, hsame⟩ := mem_irrelevances.mp hi
  obtain ⟨ho, hkept⟩ := mem_objectives_relevant.mp ho
  have hirrelevant : i ∈ m.irrelevances := mem_irrelevances.mpr ⟨htwo, ho, hsame⟩
  exact hkept (List.mem_map_of_mem hirrelevant)

theorem irrelevant_eq_filter (m : Matrix) :
    m.irrelevant = m.objectives.filter fun o =>
      decide (2 ≤ m.alternatives.length) && (m.uniformRating? o).isSome := by
  by_cases hfew : m.alternatives.length < 2
  · rw [irrelevant, irrelevances, if_pos hfew]
    simp [not_le.mpr hfew]
  · rw [irrelevant, irrelevances, if_neg hfew, map_filterMap_eq_filter]
    · simp [not_lt.mp hfew]
    · intro o i hi
      obtain ⟨r, -, rfl⟩ := Option.map_eq_some_iff.mp hi
      rfl

theorem irrelevant_append_relevant_perm (m : Matrix) :
    (m.irrelevant ++ m.relevant.objectives).Perm m.objectives := by
  rw [relevant, irrelevant_eq_filter]
  exact filter_append_others_perm _ _

theorem map_rating_irrelevances {a : Text} (ha : a ∈ m.alternatives) :
    m.irrelevances.map Irrelevance.rating = m.irrelevant.map (m.rating a) := by
  rw [irrelevant, List.map_map]
  exact List.map_congr_left fun i hi => ((mem_irrelevances.mp hi).2.2 a ha).symm

/-- Every score is made up of the score on the objectives that are kept and of the
uniform ratings on the others. -/
theorem score_eq_add_irrelevances {a : Text} (ha : a ∈ m.alternatives) :
    m.score a = m.relevant.score a + (m.irrelevances.map Irrelevance.rating).sum := by
  have hperm := m.irrelevant_append_relevant_perm.map (m.rating a)
  calc m.score a = (m.objectives.map (m.rating a)).sum := m.score_eq_sum a
    _ = ((m.irrelevant ++ m.relevant.objectives).map (m.rating a)).sum := hperm.sum_eq.symm
    _ = (m.irrelevant.map (m.rating a)).sum + m.relevant.score a := by
        rw [List.map_append, List.sum_append]
        rfl
    _ = m.relevant.score a + (m.irrelevances.map Irrelevance.rating).sum := by
        rw [map_rating_irrelevances ha, add_comm]

theorem best?_relevant (m : Matrix) : m.relevant.best? = m.best? := by
  refine best?_congr (fun _ => Iff.rfl) fun a ha b hb => ?_
  rw [score_eq_add_irrelevances ha, score_eq_add_irrelevances hb, add_lt_add_iff_right]

/-- **Irrelevant objectives may be left out.** Without them the dominated alternatives
and their entries, the tensions and the best alternative are the same; no other
objective becomes irrelevant; and every score is less by the sum of the uniform
ratings. -/
theorem relevant_keeps (m : Matrix) :
    m.relevant.dominations = m.dominations ∧
      m.relevant.tensions m.relevant.dominated = m.tensions m.dominated ∧
      m.relevant.best? = m.best? ∧
      m.relevant.irrelevances = [] ∧
      ∀ a ∈ m.alternatives, ∃ s, m.relevant.scores.get? a = some s ∧
        m.scores.get? a = some (s + (m.irrelevances.map Irrelevance.rating).sum) := by
  refine ⟨m.dominations_relevant, ?_, m.best?_relevant, m.irrelevances_relevant, fun a ha => ?_⟩
  · rw [dominated, dominations_relevant]
    exact m.tensions_relevant m.dominated
  · refine ⟨m.relevant.score a, get?_scores_eq_some_iff.mpr ⟨ha, rfl⟩, ?_⟩
    exact get?_scores_eq_some_iff.mpr ⟨ha, score_eq_add_irrelevances ha⟩

/-- An irrelevant objective that is declared twice is left out twice. -/
example :
    let cell (a o : Text) (r : Rating) : Cell :=
      { alternative := a, objective := o, rating := r, rationale := .null }
    let start : Matrix :=
      { alternatives := ["A", "B"], objectives := ["Color", "Cost", "Color"], cells := Table.empty }
    let m := ((start.fill (cell "A" "Color" .better)).fill (cell "B" "Color" .better)).fill
      (cell "A" "Cost" .worse)
    m.irrelevances = [⟨"Color", 1⟩, ⟨"Color", 1⟩] ∧ m.relevant.objectives = ["Cost"] ∧
      m.score "A" = 1 ∧ m.relevant.score "A" = -1 := by
  decide +kernel

end DecisionCycle.Matrix
