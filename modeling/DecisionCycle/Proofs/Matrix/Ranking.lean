import DecisionCycle.Proofs.Matrix.Tension
import DecisionCycle.Proofs.Matrix.Trail

/-!
Dominance as a ranking. It is a strict order on all names, declared or not, and the
scores never contradict it: whoever dominates has the higher sum of ratings. So the
entry of a dominated alternative leads to a higher score, and an alternative that no
other one outscores has no entry. The best alternative in particular is not dominated
but has a tension.
-/

namespace DecisionCycle.Matrix

variable {m : Matrix}

theorem scores_of_mem_dominations {d : Domination} (hd : d ∈ m.dominations) :
    ∃ s t, m.scores.get? d.alternative = some s ∧ m.scores.get? d.dominator = some t ∧ s < t := by
  have halternative := (mem_dominations_iff.mp hd).1
  obtain ⟨hdominator, hdom⟩ := dominates_of_mem_dominations hd
  exact ⟨m.score d.alternative, m.score d.dominator,
    get?_scores_eq_some_iff.mpr ⟨halternative, rfl⟩,
    get?_scores_eq_some_iff.mpr ⟨hdominator, rfl⟩, score_lt_of_dominates hdom⟩

theorem not_mem_dominated_of_top {a : Text} {s : Int} (hs : m.scores.get? a = some s)
    (htop : ∀ t ∈ m.scores.values, t ≤ s) : a ∉ m.dominated := by
  obtain ⟨ha, rfl⟩ := get?_scores_eq_some_iff.mp hs
  have hleader : a ∈ m.leaders :=
    mem_leaders.mpr ⟨ha, fun b hb => htop _ (mem_values_scores.mpr ⟨b, hb, rfl⟩)⟩
  exact not_mem_dominated_of_mem_leaders hleader

theorem mem_viable_of_best? {a : Text} (h : m.best? = some a) : a ∈ m.viable m.dominated := by
  have hleader : a ∈ m.leaders := by
    rw [best?_eq_some_iff.mp h]
    exact List.mem_singleton_self a
  exact mem_viable.mpr ⟨(mem_leaders.mp hleader).1, not_mem_dominated_of_mem_leaders hleader⟩

/-- Dominance in a matrix is a strict order that agrees with the scores. -/
structure Ranks (m : Matrix) : Prop where
  irrefl (a : Text) : m.dominates a a = false
  asymm {a b : Text} : m.dominates a b = true → m.dominates b a = false
  trans {a b c : Text} :
    m.dominates a b = true → m.dominates b c = true → m.dominates a c = true
  sum_lt {a b : Text} : m.dominates a b = true → (m.row b).sum < (m.row a).sum
  entries {d : Domination} : d ∈ m.dominations →
    ∃ s t, m.scores.get? d.alternative = some s ∧ m.scores.get? d.dominator = some t ∧ s < t
  top {a : Text} {s : Int} :
    m.scores.get? a = some s → (∀ t ∈ m.scores.values, t ≤ s) → a ∉ m.dominated
  best {a : Text} : m.best? = some a →
    a ∉ m.dominated ∧ ∃ t ∈ m.tensions m.dominated, t.alternative = a

/-- **Dominance ranks.** In every matrix dominance is a strict order that agrees with
the scores, so neither a top scorer nor the best alternative is dominated. -/
theorem dominates_ranks (m : Matrix) : m.Ranks where
  irrefl := m.dominates_irrefl
  asymm := dominates_asymm
  trans := dominates_trans
  sum_lt := score_lt_of_dominates
  entries := scores_of_mem_dominations
  top := not_mem_dominated_of_top
  best h := by
    have hviable := mem_viable_of_best? h
    exact ⟨(mem_viable.mp hviable).2, _, mem_tensions_iff.mpr ⟨_, hviable, rfl⟩, rfl⟩

end DecisionCycle.Matrix
