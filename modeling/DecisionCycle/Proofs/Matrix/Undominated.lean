import DecisionCycle.Proofs.Matrix.Tension
import DecisionCycle.Proofs.Matrix.Trail

/-!
The matrix without its dominated alternatives. Leaving them out loses nothing that
matters for a decision: an alternative that is left out scores less than one that
stays, so the top score and the leaders are the same, and the tensions were between
the others anyway. Nothing in the new matrix is dominated.
-/

namespace DecisionCycle.Matrix

def undominated (m : Matrix) : Matrix :=
  { m with alternatives := m.viable m.dominated }

@[simp] theorem alternatives_undominated (m : Matrix) :
    m.undominated.alternatives = m.viable m.dominated := rfl

@[simp] theorem score_undominated (m : Matrix) (a : Text) :
    m.undominated.score a = m.score a := rfl

@[simp] theorem dominates_undominated (m : Matrix) (a b : Text) :
    m.undominated.dominates a b = m.dominates a b := rfl

variable {m : Matrix}

theorem dominated_undominated (m : Matrix) : m.undominated.dominated = [] := by
  refine List.eq_nil_iff_forall_not_mem.mpr fun b hb => ?_
  obtain ⟨hviable, a, ha, -, hdom⟩ := mem_dominated.mp hb
  rw [dominates_undominated, not_dominates_of_mem_viable hviable (mem_viable.mp ha).1] at hdom
  cases hdom

theorem dominations_undominated (m : Matrix) : m.undominated.dominations = [] :=
  List.map_eq_nil_iff.mp m.dominated_undominated

theorem tensions_undominated (m : Matrix) :
    m.undominated.tensions m.undominated.dominated = m.tensions m.dominated := by
  have hviable : m.undominated.viable [] = m.viable m.dominated := by
    rw [viable, alternatives_undominated]
    simp
  rw [dominated_undominated, tensions, tensions, hviable]
  rfl

/-! ### Scores -/

theorem rows_scores_undominated (m : Matrix) :
    m.undominated.scores.rows =
      m.scores.rows.filter fun row => row.1 ∈ m.undominated.alternatives := by
  have hkept : (m.alternatives.filter fun a => decide (a ∈ m.viable m.dominated)) =
      m.viable m.dominated :=
    List.filter_congr fun a ha => by simp [mem_viable, ha]
  rw [rows_scores, rows_scores, List.filter_map, filter_eraseDups]
  change _ = ((m.alternatives.filter fun a => decide (a ∈ m.viable m.dominated)).eraseDups).map _
  rw [hkept]
  rfl

theorem topScore?_undominated (m : Matrix) : m.undominated.topScore? = m.topScore? := by
  ext t
  simp only [topScore?_eq_some_iff, alternatives_undominated, score_undominated]
  constructor
  · rintro ⟨⟨a, ha, rfl⟩, hle⟩
    refine ⟨⟨a, (mem_viable.mp ha).1, rfl⟩, fun b hb => ?_⟩
    obtain ⟨z, hz, rfl | hdom⟩ := exists_viable_above hb
    · exact hle z hz
    · exact (score_lt_of_dominates hdom).le.trans (hle z hz)
  · rintro ⟨⟨a, ha, rfl⟩, hle⟩
    have hleader : a ∈ m.leaders := mem_leaders.mpr ⟨ha, hle⟩
    refine ⟨⟨a, mem_viable.mpr ⟨ha, not_mem_dominated_of_mem_leaders hleader⟩, rfl⟩, ?_⟩
    intro b hb
    exact hle b (mem_viable.mp hb).1

theorem leaders_undominated (m : Matrix) : m.undominated.leaders = m.leaders := by
  have hleaders : ∀ a ∈ m.leaders, (!m.dominated.contains a) = true := by
    intro a ha
    simpa using not_mem_dominated_of_mem_leaders ha
  rw [← List.filter_eq_self.mpr hleaders, leaders_eq, leaders_eq, topScore?_undominated,
    alternatives_undominated, viable, ← filter_eraseDups, List.filter_filter, List.filter_filter]
  refine List.filter_congr fun a _ => ?_
  rw [score_undominated, Bool.and_comm]

theorem best?_undominated (m : Matrix) : m.undominated.best? = m.best? := by
  rw [best?, best?, leaders_undominated]

theorem best?_of_viable {a : Text} (ha : a ∈ m.viable m.dominated)
    (honly : ∀ b ∈ m.viable m.dominated, b = a) : m.best? = some a := by
  -- some alternative leads, and no leader is dominated
  obtain ⟨b, hb⟩ := exists_leader (mem_viable.mp ha).1
  have hall : ∀ c ∈ m.leaders, c = a := fun c hc =>
    honly c (mem_viable.mpr ⟨(mem_leaders.mp hc).1, not_mem_dominated_of_mem_leaders hc⟩)
  rw [best?_eq_some_iff, leaders_eq_singleton_iff]
  exact ⟨hall b hb ▸ hb, hall⟩

/-- **Dominated alternatives may be left out.** Without them nothing is dominated, the
tensions and the best alternative are the same, and so are the scores of those that
stay; and if only one alternative stays, it is the best one. -/
theorem undominated_keeps (m : Matrix) :
    m.undominated.dominations = [] ∧
      m.undominated.tensions m.undominated.dominated = m.tensions m.dominated ∧
      m.undominated.best? = m.best? ∧
      (m.undominated.scores.rows =
        m.scores.rows.filter fun row => row.1 ∈ m.undominated.alternatives) ∧
      ∀ a ∈ m.undominated.alternatives, (∀ b ∈ m.undominated.alternatives, b = a) →
        m.best? = some a :=
  ⟨m.dominations_undominated, m.tensions_undominated, m.best?_undominated,
    m.rows_scores_undominated, fun _ ha honly => best?_of_viable ha honly⟩

end DecisionCycle.Matrix
