import DecisionCycle.Proofs.Matrix.Score

/-!
Matrices that rate alike. Whatever is computed about some alternatives is computed from
their ratings on the declared objectives. So a matrix that has the same objectives and
gives these alternatives the same ratings says the same about them: the same scores, the
same dominance, the same gains and losses. If it declares no other alternatives, all that
is computed from it is the same.
-/

namespace DecisionCycle.Matrix

/-- The second matrix has the objectives of the first and rates the alternatives of the
first as the first does. It may declare more alternatives. -/
structure RatesAlike (m m' : Matrix) : Prop where
  objectives : m'.objectives = m.objectives
  rating {a o : Text} : a ∈ m.alternatives → o ∈ m.objectives → m'.rating a o = m.rating a o

namespace RatesAlike

variable {m m' : Matrix} (h : m.RatesAlike m')

include h

theorem row_eq {a : Text} (ha : a ∈ m.alternatives) : m'.row a = m.row a := by
  rw [row, row, h.objectives]
  exact List.map_congr_left fun o ho => h.rating ha ho

theorem score_eq {a : Text} (ha : a ∈ m.alternatives) : m'.score a = m.score a := by
  rw [score, score, h.row_eq ha]

theorem betterOn_eq {a b : Text} (ha : a ∈ m.alternatives) (hb : b ∈ m.alternatives) :
    m'.betterOn a b = m.betterOn a b := by
  rw [betterOn, betterOn, h.objectives]
  exact List.filter_congr fun o ho => by rw [h.rating ha ho, h.rating hb ho]

theorem dominates_eq {a b : Text} (ha : a ∈ m.alternatives) (hb : b ∈ m.alternatives) :
    m'.dominates a b = m.dominates a b :=
  dominates_congr (by rw [h.betterOn_eq ha hb]) (by rw [h.betterOn_eq hb ha])

theorem tensionAmong_eq {others : List Text} {a : Text} (ha : a ∈ m.alternatives)
    (hothers : ∀ b ∈ others, b ∈ m.alternatives) :
    m'.tensionAmong others a = m.tensionAmong others a := by
  rw [tensionAmong, tensionAmong, h.objectives]
  refine congrArg₂ (Tension.mk a) (List.filter_congr fun o ho => ?_)
    (List.filter_congr fun o ho => ?_)
  · exact any_congr_of_mem fun b hb => by rw [h.rating ha ho, h.rating (hothers b hb) ho]
  · exact any_congr_of_mem fun b hb => by rw [h.rating ha ho, h.rating (hothers b hb) ho]

/-! ### The same alternatives -/

section SameAlternatives

variable (halternatives : m'.alternatives = m.alternatives)

include halternatives

theorem scores_eq : m'.scores = m.scores := by
  rw [scores, scores, halternatives]
  exact congrArg Table.ofList (List.map_congr_left fun a ha => by rw [h.score_eq ha])

theorem dominations_eq : m'.dominations = m.dominations :=
  dominations_congr halternatives fun _ ha _ hb => h.betterOn_eq ha hb

theorem irrelevances_eq : m'.irrelevances = m.irrelevances := by
  rw [irrelevances, irrelevances, halternatives, h.objectives]
  have huniform : ∀ o ∈ m.objectives, m'.uniformRating? o = m.uniformRating? o := by
    intro o ho
    rw [uniformRating?, uniformRating?, halternatives,
      List.map_congr_left fun a ha => h.rating ha ho]
  split
  · rfl
  · exact List.filterMap_congr fun o ho => by rw [huniform o ho]

theorem tensions_eq (excluded : List Text) : m'.tensions excluded = m.tensions excluded := by
  have hviable : m'.viable excluded = m.viable excluded := by
    rw [viable, viable, halternatives]
  have hdeclared : ∀ a ∈ m.viable excluded, a ∈ m.alternatives := fun a ha => (mem_viable.mp ha).1
  rw [tensions, tensions, hviable]
  refine List.map_congr_left fun a ha => h.tensionAmong_eq (hdeclared a ha) fun b hb => ?_
  exact hdeclared b (List.mem_of_mem_filter hb)

theorem topScore?_eq : m'.topScore? = m.topScore? := by
  rw [topScore?, topScore?, h.scores_eq halternatives]

theorem leaders_eq : m'.leaders = m.leaders := by
  rw [leaders, leaders, h.scores_eq halternatives, h.topScore?_eq halternatives]

theorem best?_eq : m'.best? = m.best? := by
  rw [best?, best?, h.leaders_eq halternatives]

end SameAlternatives

end RatesAlike

end DecisionCycle.Matrix
