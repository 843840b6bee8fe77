import DecisionCycle.Proofs.Matrix.Trail

/-!
The search for dominated alternatives, against the ratings. An alternative outdoes
another one if it is rated nowhere lower and somewhere higher. Each place at which an
alternative that is outdone is declared has one entry, and the entries are in the order
of these places. An entry names the first alternative in the order of declaration that
outdoes the dominated one, and its text lists the objectives on which that one is
better. There is always one to list, since whoever is better nowhere outdoes nobody.
-/

namespace DecisionCycle.Matrix

def Outdoes (m : Matrix) (a b : Text) : Prop :=
  (∀ o ∈ m.objectives, m.rating b o ≤ m.rating a o) ∧
    ∃ o ∈ m.objectives, m.rating b o < m.rating a o

instance (m : Matrix) (a b : Text) : Decidable (m.Outdoes a b) :=
  inferInstanceAs (Decidable (_ ∧ _))

def IsOutdone (m : Matrix) (b : Text) : Prop :=
  ∃ a ∈ m.alternatives, a ≠ b ∧ m.Outdoes a b

instance (m : Matrix) (b : Text) : Decidable (m.IsOutdone b) :=
  inferInstanceAs (Decidable (∃ a ∈ m.alternatives, _))

variable {m : Matrix}

theorem outdoes_iff_dominates {a b : Text} : m.Outdoes a b ↔ m.dominates a b = true :=
  dominates_iff.symm

theorem Outdoes.ne {a b : Text} (h : m.Outdoes a b) : a ≠ b :=
  ne_of_dominates (outdoes_iff_dominates.mp h)

theorem betterOn_ne_nil {a b : Text} (h : m.Outdoes a b) : m.betterOn a b ≠ [] :=
  (dominates_iff_betterOn.mp (outdoes_iff_dominates.mp h)).2

theorem dominator?_eq_some_iff {a b : Text} :
    m.dominator? b = some a ↔
      m.Outdoes a b ∧ ∃ before after, m.alternatives = before ++ a :: after ∧
        ∀ c ∈ before, ¬m.Outdoes c b := by
  -- to be another alternative is no condition of its own, since nobody outdoes itself
  have hother : (fun c => c != b && m.dominates c b) = fun c => decide (m.Outdoes c b) := by
    funext c
    rw [Bool.eq_iff_iff, Bool.and_eq_true, bne_iff_ne, decide_eq_true_iff, outdoes_iff_dominates]
    exact ⟨And.right, fun h => ⟨ne_of_dominates h, h⟩⟩
  rw [dominator?, hother, List.find?_eq_some_iff_append]
  simp

/-- The ratings bear out the entry of a dominated alternative, down to its text. -/
structure Warrants (m : Matrix) (d : Domination) : Prop where
  other : d.dominator ≠ d.alternative
  outdoes : m.Outdoes d.dominator d.alternative
  first : ∃ before after, m.alternatives = before ++ d.dominator :: after ∧
    ∀ a ∈ before, ¬m.Outdoes a d.alternative
  betterOn : d.betterOn =
    m.objectives.filter fun o => m.rating d.alternative o < m.rating d.dominator o
  betterOn_ne_nil : d.betterOn ≠ []
  explanation : d.explanation = d.dominator ++
    " is at least as good on all objectives and strictly better on: " ++ Text.join ", " d.betterOn

theorem warrants_of_mem_dominations {d : Domination} (hd : d ∈ m.dominations) : m.Warrants d := by
  obtain ⟨-, hdominator, hbetter⟩ := mem_dominations_iff.mp hd
  obtain ⟨houtdoes, hfirst⟩ := dominator?_eq_some_iff.mp hdominator
  exact
    { other := houtdoes.ne
      outdoes := houtdoes
      first := hfirst
      betterOn := hbetter
      betterOn_ne_nil := hbetter ▸ betterOn_ne_nil houtdoes
      explanation := rfl }

theorem dominated_eq_filter_isOutdone (m : Matrix) :
    m.dominated = m.alternatives.filter fun b => m.IsOutdone b := by
  rw [dominated_eq_filter]
  refine List.filter_congr fun b _ => ?_
  rw [Bool.eq_iff_iff, isSome_dominator?_iff, decide_eq_true_iff]
  simp only [IsOutdone, outdoes_iff_dominates]

/-- **Who is dominated, by whom and why.** There is an entry for every place at which an
alternative is declared that another one outdoes, in the order of these places, and no
other entry. It names the first alternative that outdoes this one and says on which
objectives. -/
theorem dominations_warranted (m : Matrix) :
    (m.dominations.map Domination.alternative =
        m.alternatives.filter fun b => m.IsOutdone b) ∧
      ∀ d ∈ m.dominations, m.Warrants d :=
  ⟨m.dominated_eq_filter_isOutdone, fun _ => warrants_of_mem_dominations⟩

/-- An alternative that is declared twice has two entries, and a dominator that is outdone
itself is named if it comes first. -/
example :
    let cell (a o : Text) (r : Rating) : Cell :=
      { alternative := a, objective := o, rating := r, rationale := .null }
    let start : Matrix :=
      { alternatives := ["B", "C", "A", "C"], objectives := ["Cost", "Speed"]
        cells := Table.empty }
    let m := ((start.fill (cell "A" "Cost" .muchBetter)).fill (cell "B" "Cost" .better)).fill
      (cell "A" "Speed" .better)
    m.dominations =
      [⟨"B", "A", ["Cost", "Speed"]⟩, ⟨"C", "B", ["Cost"]⟩, ⟨"C", "B", ["Cost"]⟩] := by
  decide +kernel

end DecisionCycle.Matrix
