import DecisionCycle.Proofs.Matrix.Trail

/-!
Raising one rating of an alternative. It can only help that alternative: its score
does not fall, it dominates whom it dominated, nothing dominates it that did not, and
if it was the best one it remains so. The others keep their scores, and if one of them
becomes dominated the alternative whose rating was raised is to blame.
-/

namespace DecisionCycle.Matrix

/-- The second matrix declares the names of the first and rates them as the first does,
except that the rating of `a` on `o` may be higher. -/
structure Raises (m m' : Matrix) (a o : Text) : Prop where
  alternatives : m'.alternatives = m.alternatives
  objectives : m'.objectives = m.objectives
  raised : m.rating a o ≤ m'.rating a o
  kept {b p : Text} : b ∈ m.alternatives → p ∈ m.objectives → (b, p) ≠ (a, o) →
    m'.rating b p = m.rating b p

theorem raises_fill {m : Matrix} {c : Cell}
    (h : m.rating c.alternative c.objective ≤ c.rating.value) :
    m.Raises (m.fill c) c.alternative c.objective where
  alternatives := rfl
  objectives := rfl
  raised := by rwa [rating_fill, if_pos rfl]
  kept _ _ hne := by rw [rating_fill, if_neg hne]

namespace Raises

variable {m m' : Matrix} {a o : Text} (h : m.Raises m' a o)

include h

theorem rating_le (ha : a ∈ m.alternatives) {p : Text} (hp : p ∈ m.objectives) :
    m.rating a p ≤ m'.rating a p := by
  by_cases hpo : p = o
  · rw [hpo]
    exact h.raised
  · exact (h.kept ha hp (by simp [hpo])).ge

theorem rating_eq {b : Text} (hb : b ∈ m.alternatives) (hne : b ≠ a) {p : Text}
    (hp : p ∈ m.objectives) : m'.rating b p = m.rating b p :=
  h.kept hb hp (by simp [hne])

theorem row_eq_iff {b : Text} :
    m'.row b = m.row b ↔ ∀ p ∈ m.objectives, m'.rating b p = m.rating b p := by
  rw [row, row, h.objectives]
  exact List.map_inj_left

/-! ### Scores -/

theorem score_le (ha : a ∈ m.alternatives) : m.score a ≤ m'.score a := by
  rw [score_eq_sum, score_eq_sum, h.objectives]
  exact List.sum_le_sum fun p hp => h.rating_le ha hp

theorem score_eq {b : Text} (hb : b ∈ m.alternatives) (hne : b ≠ a) : m'.score b = m.score b := by
  have hrow : m'.row b = m.row b := h.row_eq_iff.mpr fun p hp => h.rating_eq hb hne hp
  rw [score, score, hrow]

theorem get?_scores_eq {b : Text} (hne : b ≠ a) : m'.scores.get? b = m.scores.get? b := by
  rw [get?_scores, get?_scores, h.alternatives]
  by_cases hb : b ∈ m.alternatives
  · rw [if_pos hb, if_pos hb, h.score_eq hb hne]
  · rw [if_neg hb, if_neg hb]

theorem best?_eq (hbest : m.best? = some a) : m'.best? = some a := by
  obtain ⟨ha, hlt⟩ := best?_eq_some_iff_score_lt.mp hbest
  rw [best?_eq_some_iff_score_lt, h.alternatives]
  refine ⟨ha, fun b hb hne => ?_⟩
  rw [h.score_eq hb hne]
  exact (hlt b hb hne).trans_le (h.score_le ha)

/-! ### Dominance -/

theorem dominates_raised (ha : a ∈ m.alternatives) {b : Text} (hrow : m'.row b = m.row b)
    (hdom : m.dominates a b = true) : m'.dominates a b = true :=
  dominates_of_le h.objectives (fun _ hp => h.rating_le ha hp)
    (fun _ hp => (h.row_eq_iff.mp hrow _ hp).le) hdom

theorem dominates_of_ne {b c : Text} (hb : b ∈ m.alternatives) (hne : b ≠ a)
    (hc : c ∈ m.alternatives) (hdom : m'.dominates b c = true) : m.dominates b c = true := by
  have hobj := h.objectives
  refine dominates_of_le hobj.symm (fun p hp => ?_) (fun p hp => ?_) hdom
  · rw [hobj] at hp
    exact (h.rating_eq hb hne hp).le
  · rw [hobj] at hp
    by_cases hca : c = a
    · subst hca
      exact h.rating_le hc hp
    · exact (h.rating_eq hc hca hp).ge

theorem mem_dominated_of_dominator_ne {d : Domination} (hd : d ∈ m'.dominations)
    (hne : d.dominator ≠ a) : d.alternative ∈ m.dominated := by
  have halternative := (mem_dominations_iff.mp hd).1
  obtain ⟨hmem, hdom⟩ := dominates_of_mem_dominations hd
  rw [h.alternatives] at halternative hmem
  have hbefore := h.dominates_of_ne hmem hne halternative hdom
  exact mem_dominated.mpr ⟨halternative, d.dominator, hmem, ne_of_dominates hbefore, hbefore⟩

end Raises

/-- What a raised rating does for the alternative that has it. -/
structure Favours (m m' : Matrix) (a : Text) : Prop where
  score : ∃ s s', m.scores.get? a = some s ∧ m'.scores.get? a = some s' ∧ s ≤ s'
  others {b : Text} : b ≠ a → m'.scores.get? b = m.scores.get? b
  /-- A name that is not declared may be dominated too; it has to be rated as before. -/
  dominates {b : Text} : b ∈ m.alternatives ∨ m'.row b = m.row b →
    m.dominates a b = true → m'.dominates a b = true
  undominated : a ∉ m.dominated → a ∉ m'.dominated
  newEntries {d : Domination} : d ∈ m'.dominations → d.alternative ∉ m.dominated →
    d.dominator = a ∧ m'.dominates a d.alternative = true
  best : m.best? = some a → m'.best? = some a

/-- **A higher rating does no harm.** If one rating of an alternative is raised, this
favours the alternative in its score, in dominance and in the choice of the best one,
and whoever is dominated for this reason is dominated by that alternative. -/
theorem raises_favours {m m' : Matrix} {a o : Text} (ha : a ∈ m.alternatives)
    (h : m.Raises m' a o) : m.Favours m' a where
  score := by
    have ha' : a ∈ m'.alternatives := h.alternatives ▸ ha
    exact ⟨m.score a, m'.score a, get?_scores_eq_some_iff.mpr ⟨ha, rfl⟩,
      get?_scores_eq_some_iff.mpr ⟨ha', rfl⟩, h.score_le ha⟩
  others := h.get?_scores_eq
  dominates {b} hb hdom := by
    refine h.dominates_raised ha ?_ hdom
    rcases hb with hb | hrow
    · have hne : b ≠ a := (ne_of_dominates hdom).symm
      exact h.row_eq_iff.mpr fun p hp => h.rating_eq hb hne hp
    · exact hrow
  undominated hnone hdominated := by
    obtain ⟨d, hd, rfl⟩ := mem_dominated_iff_exists.mp hdominated
    have hne := ne_of_dominates (dominates_of_mem_dominations hd).2
    exact hnone (h.mem_dominated_of_dominator_ne hd hne)
  newEntries {d} hd hnew := by
    by_cases hda : d.dominator = a
    · exact ⟨hda, hda ▸ (dominates_of_mem_dominations hd).2⟩
    · exact absurd (h.mem_dominated_of_dominator_ne hd hda) hnew
  best := h.best?_eq

theorem raises_favours_filling :
    let cell (a o : Text) (r : Rating) : Cell :=
      { alternative := a, objective := o, rating := r, rationale := .null }
    let start : Matrix :=
      { alternatives := ["A", "B", "C"], objectives := ["Cost", "Speed"], cells := Table.empty }
    let m := ((start.fill (cell "A" "Cost" .better)).fill (cell "C" "Cost" .worse)).fill
      (cell "C" "Speed" .better)
    let m' := m.fill (cell "A" "Speed" .muchBetter)
    ("A" : Text) ∈ m.alternatives ∧ m.Raises m' "A" "Speed" ∧ m.dominated = ["B"] ∧
      m'.dominated = ["B", "C"] ∧ m.best? = some ("A" : Text) ∧ m.Favours m' "A" := by
  intro cell start m m'
  have hmem : ("A" : Text) ∈ m.alternatives := by decide
  have hraises : m.Raises m' "A" "Speed" := raises_fill (by decide +kernel)
  exact ⟨hmem, hraises, by decide +kernel, by decide +kernel, by decide +kernel,
    raises_favours hmem hraises⟩

end DecisionCycle.Matrix
