import DecisionCycle.Proofs.Matrix.Score

/-!
The best alternative. It is found by way of the table of scores, which has one row for
each name however often the name is declared: the rows with the top score are picked out,
and there has to be exactly one. Told without that table, the best alternative is the one
whose filled cells add up to more than those of every other one. So there is none exactly
if no alternative is declared or if two of them are level at the top.
-/

namespace DecisionCycle.Matrix

/-- The sum of the ratings in the cells of an alternative that are filled, objective by
objective as they are declared. -/
def earned (m : Matrix) (a : Text) : Int :=
  ((m.objectives.filterMap (m.cell? a)).map fun c => c.rating.value).sum

def Excels (m : Matrix) (a : Text) : Prop :=
  a ∈ m.alternatives ∧ ∀ b ∈ m.alternatives, b ≠ a → m.earned b < m.earned a

def TiedAtTop (m : Matrix) : Prop :=
  ∃ a ∈ m.alternatives, ∃ b ∈ m.alternatives, a ≠ b ∧ m.earned a = m.earned b ∧
    ∀ c ∈ m.alternatives, m.earned c ≤ m.earned a

variable {m : Matrix}

theorem earned_eq_score (m : Matrix) (a : Text) : m.earned a = m.score a := by
  rw [earned, score_eq_sum]
  induction m.objectives with
  | nil => rfl
  | cons o rest ih =>
      rw [List.map_cons, List.sum_cons, ← ih, rating]
      cases hcell : m.cell? a o with
      | none => simp [hcell, Rating.missing]
      | some c => simp [hcell]

theorem best?_eq_some_iff_excels {a : Text} : m.best? = some a ↔ m.Excels a := by
  simp only [best?_eq_some_iff_score_lt, Excels, earned_eq_score]

theorem not_excels_of_tiedAtTop (h : m.TiedAtTop) (c : Text) : ¬m.Excels c := by
  obtain ⟨a, ha, b, hb, hne, hsame, htop⟩ := h
  rintro ⟨hc, hmore⟩
  have hle := htop c hc
  -- one of the two that are level is not the one that excels, and so lies below it
  by_cases hca : a = c
  · have hlt := hmore b hb (hca ▸ hne.symm)
    omega
  · have hlt := hmore a ha hca
    omega

theorem excels_or_tiedAtTop {a : Text} (ha : a ∈ m.alternatives) :
    (∃ c, m.Excels c) ∨ m.TiedAtTop := by
  obtain ⟨c, hleader⟩ := exists_leader ha
  obtain ⟨hc, htop⟩ := mem_leaders.mp hleader
  by_cases honly : ∀ b ∈ m.alternatives, b ≠ c → m.score b < m.score c
  · left
    simp only [Excels, earned_eq_score]
    exact ⟨c, hc, honly⟩
  · right
    push Not at honly
    obtain ⟨b, hb, hne, hle⟩ := honly
    simp only [TiedAtTop, earned_eq_score]
    exact ⟨c, hc, b, hb, hne.symm, le_antisymm hle (htop b hb), htop⟩

theorem best?_eq_none_iff : m.best? = none ↔ m.alternatives = [] ∨ m.TiedAtTop := by
  rw [Option.eq_none_iff_forall_ne_some]
  simp only [ne_eq, best?_eq_some_iff_excels]
  constructor
  · intro hnone
    cases halternatives : m.alternatives with
    | nil => exact .inl rfl
    | cons a rest =>
        have ha : a ∈ m.alternatives := halternatives ▸ List.mem_cons_self
        exact .inr ((excels_or_tiedAtTop ha).resolve_left fun ⟨c, hc⟩ => hnone c hc)
  · rintro (hempty | htied) c hc
    · have hmem := hc.1
      rw [hempty] at hmem
      cases hmem
    · exact not_excels_of_tiedAtTop htied c hc

/-- What the best alternative and the scores are, in what the alternatives have earned. -/
structure Recommends (m : Matrix) : Prop where
  scores {a : Text} {s : Int} :
    m.scores.get? a = some s ↔ a ∈ m.alternatives ∧ m.earned a = s
  best {a : Text} : m.best? = some a ↔ m.Excels a
  undecided : m.best? = none ↔ m.alternatives = [] ∨ m.TiedAtTop

/-- **The best alternative is the one that has earned most.** In every matrix an alternative
is the best one exactly if it is declared and has earned more than all the others, and there
is none exactly if nothing is declared or two are level at the top. -/
theorem best?_recommends (m : Matrix) : m.Recommends where
  scores := by
    simp only [earned_eq_score]
    exact get?_scores_eq_some_iff
  best := best?_eq_some_iff_excels
  undecided := best?_eq_none_iff

/-- A name that is declared twice is not level with itself, and the top may be below zero. -/
example :
    let cell (a : Text) (r : Rating) : Cell :=
      { alternative := a, objective := "Cost", rating := r, rationale := .null }
    let start : Matrix :=
      { alternatives := ["A", "B", "A"], objectives := ["Cost", "Speed"], cells := Table.empty }
    let m := (start.fill (cell "A" .worse)).fill (cell "B" .muchWorse)
    m.best? = some "A" ∧ (m.fill (cell "B" .worse)).best? = none ∧ start.best? = none := by
  decide +kernel

end DecisionCycle.Matrix
