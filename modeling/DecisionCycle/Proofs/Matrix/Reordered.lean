import DecisionCycle.Proofs.FirstLeast
import DecisionCycle.Proofs.Matrix.Trail
import DecisionCycle.Report.Consequences

/-!
Matrices whose names are declared in another order. Scores, the best alternative, who
is dominated, what is irrelevant and what each alternative gains and loses do not hang
on the order; it only decides how these are listed, and which of several dominators an
entry names. The order of the objectives does not decide even that, nor which
alternatives the summary of the tensions names.
-/

namespace DecisionCycle

namespace Tension

/-- Two tensions of one alternative list the same gains and the same losses, each
perhaps in another order. -/
structure Rearranges (t t' : Tension) : Prop where
  alternative : t.alternative = t'.alternative
  gains : t.gains.Perm t'.gains
  losses : t.losses.Perm t'.losses

theorem Rearranges.isClearWinner {t t' : Tension} (h : t.Rearranges t') :
    t.isClearWinner = t'.isClearWinner := by
  rw [Tension.isClearWinner, h.gains.isEmpty_eq, h.losses.isEmpty_eq]
  rfl

theorem Rearranges.imbalance {t t' : Tension} (h : t.Rearranges t') :
    t.imbalance = t'.imbalance := by
  rw [Tension.imbalance, h.gains.length_eq, h.losses.length_eq]
  rfl

theorem Rearranges.intensity {t t' : Tension} (h : t.Rearranges t') :
    t.intensity = t'.intensity := by
  rw [Tension.intensity, h.gains.length_eq, h.losses.length_eq]
  rfl

theorem summarize_map_congr {α : Type} {f g : α → Tension} (h : ∀ a, (f a).Rearranges (g a))
    (l : List α) : summarize (l.map f) = summarize (l.map g) := by
  have halternative : alternative ∘ f = alternative ∘ g := funext fun a => (h a).alternative
  have hwinner : isClearWinner ∘ f = isClearWinner ∘ g := funext fun a => (h a).isClearWinner
  have himbalance (a : α) : (f a).imbalance = (g a).imbalance := (h a).imbalance
  have hintensity (a : α) : (f a).intensity = (g a).intensity := (h a).intensity
  simp only [summarize, List.length_map, List.any_map, ← List.map_reverse, minOn?_map, maxOn?_map,
    Option.map_map, halternative, hwinner, himbalance, hintensity]

end Tension

namespace Matrix

variable {m : Matrix} {names : List Text}

/-! ### Another order of the alternatives -/

def withAlternatives (m : Matrix) (names : List Text) : Matrix :=
  { m with alternatives := names }

@[simp] theorem alternatives_withAlternatives (m : Matrix) (names : List Text) :
    (m.withAlternatives names).alternatives = names := rfl

section Alternatives

variable (h : names.Perm m.alternatives)

include h

theorem get?_scores_withAlternatives (a : Text) :
    (m.withAlternatives names).scores.get? a = m.scores.get? a := by
  simp only [get?_scores, alternatives_withAlternatives, h.mem_iff]
  rfl

theorem best?_withAlternatives : (m.withAlternatives names).best? = m.best? :=
  best?_congr (fun _ => h.mem_iff) fun _ _ _ _ => Iff.rfl

theorem uniformRating?_withAlternatives (o : Text) :
    (m.withAlternatives names).uniformRating? o = m.uniformRating? o := by
  ext r
  rw [uniformRating?_eq_some_iff, uniformRating?_eq_some_iff]
  exact and_congr (not_congr (perm_eq_nil_iff h)) (forall_congr' fun a => imp_congr_left h.mem_iff)

theorem irrelevances_withAlternatives :
    (m.withAlternatives names).irrelevances = m.irrelevances := by
  rw [irrelevances, irrelevances, alternatives_withAlternatives, h.length_eq]
  simp only [uniformRating?_withAlternatives h]
  rfl

theorem dominated_withAlternatives : (m.withAlternatives names).dominated.Perm m.dominated := by
  have hsome (b : Text) : ((m.withAlternatives names).dominator? b).isSome =
      (m.dominator? b).isSome := by
    rw [Bool.eq_iff_iff, isSome_dominator?_iff, isSome_dominator?_iff]
    exact exists_congr fun a => and_congr_left fun _ => h.mem_iff
  simp only [dominated_eq_filter, hsome]
  exact h.filter _

theorem viable_withAlternatives {excluded excluded' : List Text} (he : excluded'.Perm excluded) :
    ((m.withAlternatives names).viable excluded').Perm (m.viable excluded) := by
  have hcontains : excluded'.contains = excluded.contains := funext fun a => he.contains_eq
  rw [viable, viable, hcontains]
  exact h.filter _

omit h in
theorem tensionAmong_perm {others others' : List Text} (ho : others'.Perm others) (a : Text) :
    m.tensionAmong others' a = m.tensionAmong others a := by
  simp only [tensionAmong, ho.any_eq]

theorem tensions_withAlternatives {excluded excluded' : List Text} (he : excluded'.Perm excluded) :
    ((m.withAlternatives names).tensions excluded').Perm (m.tensions excluded) := by
  have hviable := viable_withAlternatives h he
  have hsame : (m.withAlternatives names).tensions excluded' =
      ((m.withAlternatives names).viable excluded').map fun a =>
        m.tensionAmong ((m.viable excluded).filter (· != a)) a :=
    List.map_congr_left fun a _ => tensionAmong_perm (hviable.filter _) a
  rw [hsame]
  exact hviable.map _

end Alternatives

/-! ### Another order of the objectives -/

def withObjectives (m : Matrix) (names : List Text) : Matrix :=
  { m with objectives := names }

@[simp] theorem alternatives_withObjectives (m : Matrix) (names : List Text) :
    (m.withObjectives names).alternatives = m.alternatives := rfl

section Objectives

variable (h : names.Perm m.objectives)

include h

theorem score_withObjectives (a : Text) : (m.withObjectives names).score a = m.score a :=
  (h.map (m.rating a)).sum_eq

theorem scores_withObjectives : (m.withObjectives names).scores = m.scores := by
  simp only [scores, score_withObjectives h]
  rfl

theorem best?_withObjectives : (m.withObjectives names).best? = m.best? :=
  best?_congr (fun _ => Iff.rfl) fun a _ b _ => by
    rw [score_withObjectives h, score_withObjectives h]

theorem betterOn_withObjectives (a b : Text) :
    ((m.withObjectives names).betterOn a b).Perm (m.betterOn a b) :=
  h.filter _

theorem dominates_withObjectives (a b : Text) :
    (m.withObjectives names).dominates a b = m.dominates a b := by
  have hab := betterOn_withObjectives h a b
  have hba := betterOn_withObjectives h b a
  exact dominates_congr (perm_eq_nil_iff hab) (perm_eq_nil_iff hba)

theorem dominator?_withObjectives (b : Text) :
    (m.withObjectives names).dominator? b = m.dominator? b :=
  dominator?_congr rfl fun a _ => dominates_withObjectives h a b

theorem dominators_withObjectives :
    (m.withObjectives names).dominations.map (fun d => (d.alternative, d.dominator)) =
      m.dominations.map fun d => (d.alternative, d.dominator) := by
  simp only [dominations, List.map_filterMap, Option.map_map, dominator?_withObjectives h]
  rfl

theorem dominated_withObjectives : (m.withObjectives names).dominated = m.dominated := by
  simp only [dominated_eq_filter, dominator?_withObjectives h]
  rfl

theorem irrelevances_withObjectives :
    (m.withObjectives names).irrelevances.Perm m.irrelevances := by
  rw [irrelevances, irrelevances, alternatives_withObjectives]
  split
  · exact .refl _
  · exact h.filterMap _

theorem rearranges_withObjectives (others : List Text) (a : Text) :
    ((m.withObjectives names).tensionAmong others a).Rearranges (m.tensionAmong others a) where
  alternative := rfl
  gains := h.filter _
  losses := h.filter _

theorem tensions_withObjectives (excluded : List Text) :
    List.Forall₂ Tension.Rearranges ((m.withObjectives names).tensions excluded)
      (m.tensions excluded) := by
  rw [tensions, tensions, List.forall₂_map_left_iff, List.forall₂_map_right_iff]
  exact List.forall₂_same.mpr fun a _ => rearranges_withObjectives h _ a

theorem summarize_withObjectives (excluded : List Text) :
    Tension.summarize ((m.withObjectives names).tensions excluded) =
      Tension.summarize (m.tensions excluded) :=
  Tension.summarize_map_congr (fun a => rearranges_withObjectives h _ a) _

end Objectives

/-! ### What stays the same -/

/-- Two matrices say the same of every alternative and of every objective, though they
may list the alternatives in different orders. -/
structure AgreesOnAlternatives (m m' : Matrix) : Prop where
  scores (a : Text) : m'.scores.get? a = m.scores.get? a
  best : m'.best? = m.best?
  irrelevances : m'.irrelevances = m.irrelevances
  dominated : m'.dominated.Perm m.dominated
  tensions : (m'.tensions m'.dominated).Perm (m.tensions m.dominated)

/-- Two matrices say the same of every alternative, in the same order, though they may
list the objectives in different orders. -/
structure AgreesOnObjectives (m m' : Matrix) : Prop where
  scores : m'.scores = m.scores
  best : m'.best? = m.best?
  dominators : m'.dominations.map (fun d => (d.alternative, d.dominator)) =
    m.dominations.map fun d => (d.alternative, d.dominator)
  irrelevances : m'.irrelevances.Perm m.irrelevances
  tensions : List.Forall₂ Tension.Rearranges (m'.tensions m'.dominated) (m.tensions m.dominated)
  summary : Tension.summarize (m'.tensions m'.dominated) =
    Tension.summarize (m.tensions m.dominated)

/-- **What the order of declaration does not decide.** If the alternatives are declared
in another order, each of them has the same score, is dominated or not as before and
has the same tensions; if the objectives are, then even the dominators that are named
and the summary of the tensions are the same. -/
theorem reordered_agrees {alternatives objectives : List Text}
    (halternatives : alternatives.Perm m.alternatives)
    (hobjectives : objectives.Perm m.objectives) :
    m.AgreesOnAlternatives (m.withAlternatives alternatives) ∧
      m.AgreesOnObjectives (m.withObjectives objectives) := by
  have hdominated := dominated_withAlternatives halternatives
  refine ⟨⟨get?_scores_withAlternatives halternatives, best?_withAlternatives halternatives,
    irrelevances_withAlternatives halternatives, hdominated,
    tensions_withAlternatives halternatives hdominated⟩, ?_⟩
  refine ⟨scores_withObjectives hobjectives, best?_withObjectives hobjectives,
    dominators_withObjectives hobjectives, irrelevances_withObjectives hobjectives, ?_, ?_⟩
  · rw [dominated_withObjectives hobjectives]
    exact tensions_withObjectives hobjectives m.dominated
  · rw [dominated_withObjectives hobjectives]
    exact summarize_withObjectives hobjectives m.dominated

/-- The order of the alternatives decides which of two dominators is named, and that of
the objectives how its advantages are listed. -/
theorem reordered_agrees_reversed :
    let cell (a o : Text) (r : Rating) : Cell :=
      { alternative := a, objective := o, rating := r, rationale := .null }
    let start : Matrix :=
      { alternatives := ["A", "B", "C"], objectives := ["Cost", "Speed"], cells := Table.empty }
    let m := (((start.fill (cell "A" "Cost" .muchBetter)).fill (cell "A" "Speed" .better)).fill
      (cell "B" "Cost" .better)).fill (cell "B" "Speed" .muchBetter)
    m.alternatives.reverse.Perm m.alternatives ∧ m.objectives.reverse.Perm m.objectives ∧
      m.dominations = [⟨"C", "A", ["Cost", "Speed"]⟩] ∧
      (m.withAlternatives m.alternatives.reverse).dominations =
        [⟨"C", "B", ["Cost", "Speed"]⟩] ∧
      (m.withObjectives m.objectives.reverse).dominations = [⟨"C", "A", ["Speed", "Cost"]⟩] ∧
      m.AgreesOnAlternatives (m.withAlternatives m.alternatives.reverse) ∧
      m.AgreesOnObjectives (m.withObjectives m.objectives.reverse) := by
  intro cell start m
  have halternatives := m.alternatives.reverse_perm
  have hobjectives := m.objectives.reverse_perm
  exact ⟨halternatives, hobjectives, by decide +kernel, by decide +kernel, by decide +kernel,
    reordered_agrees halternatives hobjectives⟩

end Matrix

end DecisionCycle
