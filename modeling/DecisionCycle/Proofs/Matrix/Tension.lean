import DecisionCycle.Proofs.Matrix.Dominance
import DecisionCycle.Report.Consequences

/-!
Tensions between the alternatives that nothing dominates. Among these a gain never
comes without a loss: whoever gains an objective on another one would dominate it,
if it did not lose one as well. Hence either all of them have the same ratings, and
there are no tensions to speak of, or each of them both gains and loses, and a
clear winner is never found.
-/

namespace DecisionCycle.Matrix

variable {m : Matrix}

/-! ### Gains and losses -/

theorem exists_mem_others {others : List Text} {a : Text} {P : Text → Prop} (ha : ¬P a) :
    (∃ b ∈ others.filter (· != a), P b) ↔ ∃ b ∈ others, P b := by
  constructor
  · rintro ⟨b, hb, hP⟩
    exact ⟨b, List.mem_of_mem_filter hb, hP⟩
  · rintro ⟨b, hb, hP⟩
    have hne : b ≠ a := by
      rintro rfl
      exact ha hP
    exact ⟨b, List.mem_filter.mpr ⟨hb, bne_iff_ne.mpr hne⟩, hP⟩

theorem mem_gains_iff {others : List Text} {a o : Text} :
    o ∈ (m.tensionAmong (others.filter (· != a)) a).gains ↔
      o ∈ m.objectives ∧ ∃ b ∈ others, m.rating b o < m.rating a o := by
  rw [tensionAmong, List.mem_filter, List.any_eq_true]
  simp only [decide_eq_true_iff]
  exact and_congr_right fun _ => exists_mem_others (lt_irrefl (m.rating a o))

theorem mem_losses_iff {others : List Text} {a o : Text} :
    o ∈ (m.tensionAmong (others.filter (· != a)) a).losses ↔
      o ∈ m.objectives ∧ ∃ b ∈ others, m.rating a o < m.rating b o := by
  rw [tensionAmong, List.mem_filter, List.any_eq_true]
  simp only [decide_eq_true_iff]
  exact and_congr_right fun _ => exists_mem_others (lt_irrefl (m.rating a o))

theorem mem_tensions_iff {excluded : List Text} {t : Tension} :
    t ∈ m.tensions excluded ↔
      ∃ a ∈ m.viable excluded,
        t = m.tensionAmong ((m.viable excluded).filter (· != a)) a := by
  simp [tensions, eq_comm]

/-! ### Undominated alternatives -/

def Differ (m : Matrix) (a b : Text) : Prop :=
  ∃ o ∈ m.objectives, m.rating a o ≠ m.rating b o

theorem Differ.exists_lt {a b : Text} (h : m.Differ a b) (ha : a ∈ m.viable m.dominated)
    (hb : b ∈ m.viable m.dominated) : ∃ o ∈ m.objectives, m.rating b o < m.rating a o := by
  by_contra hnone
  push Not at hnone
  have hdom : m.dominates b a = true := by
    obtain ⟨o, ho, hne⟩ := h
    exact dominates_iff.mpr ⟨hnone, o, ho, lt_of_le_of_ne (hnone o ho) hne⟩
  rw [not_dominates_of_mem_viable ha (mem_viable.mp hb).1] at hdom
  cases hdom

theorem Differ.symm {a b : Text} (h : m.Differ a b) : m.Differ b a := by
  obtain ⟨o, ho, hne⟩ := h
  exact ⟨o, ho, hne.symm⟩

theorem gains_and_losses_ne_nil {a b : Text} (h : m.Differ a b)
    (ha : a ∈ m.viable m.dominated) (hb : b ∈ m.viable m.dominated) :
    (m.tensionAmong ((m.viable m.dominated).filter (· != a)) a).gains ≠ [] ∧
      (m.tensionAmong ((m.viable m.dominated).filter (· != a)) a).losses ≠ [] := by
  obtain ⟨o, ho, hgain⟩ := h.exists_lt ha hb
  obtain ⟨o', ho', hloss⟩ := h.symm.exists_lt hb ha
  exact ⟨List.ne_nil_of_mem (mem_gains_iff.mpr ⟨ho, b, hb, hgain⟩),
    List.ne_nil_of_mem (mem_losses_iff.mpr ⟨ho', b, hb, hloss⟩)⟩

theorem gains_and_losses_eq_nil {others : List Text} {a : Text}
    (h : ∀ b ∈ others, ¬m.Differ a b) :
    (m.tensionAmong (others.filter (· != a)) a).gains = [] ∧
      (m.tensionAmong (others.filter (· != a)) a).losses = [] := by
  constructor <;> refine List.eq_nil_iff_forall_not_mem.mpr fun o ho => ?_
  · obtain ⟨ho, b, hb, hlt⟩ := mem_gains_iff.mp ho
    exact h b hb ⟨o, ho, hlt.ne'⟩
  · obtain ⟨ho, b, hb, hlt⟩ := mem_losses_iff.mp ho
    exact h b hb ⟨o, ho, hlt.ne⟩

/-- All undominated alternatives have the same ratings, or each of them differs from
another one. -/
theorem agree_or_differ (m : Matrix) :
    (∀ a ∈ m.viable m.dominated, ∀ b ∈ m.viable m.dominated, ¬m.Differ a b) ∨
      ∀ a ∈ m.viable m.dominated, ∃ b ∈ m.viable m.dominated, m.Differ a b := by
  by_cases hsame : ∀ a ∈ m.viable m.dominated, ∀ b ∈ m.viable m.dominated, ¬m.Differ a b
  · exact .inl hsame
  · right
    push Not at hsame
    obtain ⟨b, hb, c, hc, o, ho, hne⟩ := hsame
    intro a ha
    -- two that differ on `o` cannot both agree with `a` there
    by_cases hab : m.rating a o = m.rating b o
    · exact ⟨c, hc, o, ho, hab ▸ hne⟩
    · exact ⟨b, hb, o, ho, hab⟩

/-- Either no undominated alternative gains or loses anything, or all of them do
both. -/
theorem tensions_uniform (m : Matrix) :
    (∀ t ∈ m.tensions m.dominated, t.gains = [] ∧ t.losses = []) ∨
      ∀ t ∈ m.tensions m.dominated, t.gains ≠ [] ∧ t.losses ≠ [] := by
  rcases m.agree_or_differ with hsame | hdiffer
  · left
    intro t ht
    obtain ⟨a, ha, rfl⟩ := mem_tensions_iff.mp ht
    exact gains_and_losses_eq_nil (hsame a ha)
  · right
    intro t ht
    obtain ⟨a, ha, rfl⟩ := mem_tensions_iff.mp ht
    obtain ⟨b, hb, hab⟩ := hdiffer a ha
    exact gains_and_losses_ne_nil hab ha hb

theorem isClearWinner_eq_false {t : Tension} (ht : t ∈ m.tensions m.dominated) :
    t.isClearWinner = false := by
  rcases m.tensions_uniform with hnone | hboth
  · simp [Tension.isClearWinner, (hnone t ht).1]
  · simp [Tension.isClearWinner, (hboth t ht).2]

theorem announcedWinner_toPayload (r : ConsequencesReport) :
    (r.toPayload.field "tradeoff_summary" >>=
      fun summary => summary.field "has_clear_winner") = .ok (.bool r.summary.hasClearWinner) := by
  simp [ConsequencesReport.toPayload, ConsequencesReport.summaryPayload, Value.field,
    Value.fieldOr, Value.lookup?, bind, Except.bind]

/-- **There is no clear winner.** The undominated alternatives of a matrix all gain
and lose nothing or all gain and lose something, so none of them is a clear
winner, and the report never announces one. -/
theorem clearWinners_of_undominated (m : Matrix) :
    ((∀ t ∈ m.tensions m.dominated, t.gains = [] ∧ t.losses = []) ∨
        ∀ t ∈ m.tensions m.dominated, t.gains ≠ [] ∧ t.losses ≠ []) ∧
      (∀ t ∈ m.tensions m.dominated, t.isClearWinner = false) ∧
      Tension.clearWinners (m.tensions m.dominated) = [] ∧
      (ConsequencesReport.ofMatrix m).tensions = m.tensions m.dominated ∧
      (ConsequencesReport.ofMatrix m).summary.hasClearWinner = false ∧
      ((ConsequencesReport.ofMatrix m).toPayload.field "tradeoff_summary" >>=
        fun summary => summary.field "has_clear_winner") = .ok (.bool false) := by
  have hnone : ∀ t ∈ m.tensions m.dominated, t.isClearWinner = false :=
    fun t ht => isClearWinner_eq_false ht
  have hsummary : (ConsequencesReport.ofMatrix m).summary.hasClearWinner = false :=
    List.any_eq_false.mpr fun t ht => by simp [hnone t ht]
  refine ⟨m.tensions_uniform, hnone, ?_, rfl, hsummary, ?_⟩
  · exact List.filter_eq_nil_iff.mpr fun t ht => by simp [hnone t ht]
  · rw [announcedWinner_toPayload, hsummary]

end DecisionCycle.Matrix
