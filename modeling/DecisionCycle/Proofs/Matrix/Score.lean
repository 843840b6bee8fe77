import DecisionCycle.Proofs.Matrix.Dominance
import DecisionCycle.Proofs.Table

/-!
Scores and the top of a matrix. Whoever dominates scores higher, so a top scorer is
never dominated; and since there is a top score, going from one alternative to one
that dominates it comes to an end.
-/

namespace DecisionCycle.Matrix

variable {m : Matrix}

theorem score_eq_sum (m : Matrix) (a : Text) :
    m.score a = (m.objectives.map (m.rating a)).sum := rfl

theorem score_lt_of_dominates {a b : Text} (h : m.dominates a b = true) :
    m.score b < m.score a := by
  rw [dominates_iff] at h
  rw [score_eq_sum, score_eq_sum]
  exact List.sum_lt_sum _ _ h.1 h.2

/-! ### The table of scores -/

theorem rows_scores (m : Matrix) :
    m.scores.rows = m.alternatives.eraseDups.map fun a => (a, m.score a) :=
  Table.rows_ofList_map m.score m.alternatives

theorem get?_scores (m : Matrix) (a : Text) :
    m.scores.get? a = if a ∈ m.alternatives then some (m.score a) else none :=
  Table.get?_ofList_map m.score m.alternatives a

theorem get?_scores_eq_some_iff {a : Text} {s : Int} :
    m.scores.get? a = some s ↔ a ∈ m.alternatives ∧ m.score a = s := by
  simp [get?_scores]

theorem mem_values_scores {s : Int} :
    s ∈ m.scores.values ↔ ∃ a ∈ m.alternatives, m.score a = s := by
  simp [Table.values, rows_scores, List.mem_eraseDups]

theorem topScore?_eq_max? (m : Matrix) :
    m.topScore? = (m.alternatives.eraseDups.map m.score).max? := by
  rw [topScore?, Table.values, rows_scores, List.map_map]
  rfl

theorem topScore?_eq_some_iff {t : Int} :
    m.topScore? = some t ↔
      (∃ a ∈ m.alternatives, m.score a = t) ∧ ∀ a ∈ m.alternatives, m.score a ≤ t := by
  rw [topScore?_eq_max?, List.max?_eq_some_iff]
  simp [List.mem_eraseDups]

theorem exists_topScore {a : Text} (ha : a ∈ m.alternatives) : ∃ t, m.topScore? = some t := by
  cases ht : m.topScore? with
  | some t => exact ⟨t, rfl⟩
  | none =>
      rw [topScore?_eq_max?, List.max?_eq_none_iff, List.map_eq_nil_iff] at ht
      have hmem := List.mem_eraseDups.mpr ha
      rw [ht] at hmem
      cases hmem

theorem leaders_eq (m : Matrix) :
    m.leaders = m.alternatives.eraseDups.filter fun a => some (m.score a) == m.topScore? := by
  rw [leaders, rows_scores, List.filter_map, List.map_map]
  exact List.map_id _

theorem mem_leaders {a : Text} :
    a ∈ m.leaders ↔ a ∈ m.alternatives ∧ ∀ b ∈ m.alternatives, m.score b ≤ m.score a := by
  rw [leaders_eq, List.mem_filter, List.mem_eraseDups, beq_iff_eq, eq_comm,
    topScore?_eq_some_iff]
  constructor
  · rintro ⟨ha, -, hle⟩
    exact ⟨ha, hle⟩
  · rintro ⟨ha, hle⟩
    exact ⟨ha, ⟨a, ha, rfl⟩, hle⟩

theorem nodup_leaders (m : Matrix) : m.leaders.Nodup := by
  rw [leaders_eq]
  exact (nodup_eraseDups _).filter _

theorem exists_leader {a : Text} (ha : a ∈ m.alternatives) : ∃ b, b ∈ m.leaders := by
  obtain ⟨t, ht⟩ := exists_topScore ha
  obtain ⟨⟨b, hb, rfl⟩, hle⟩ := topScore?_eq_some_iff.mp ht
  exact ⟨b, mem_leaders.mpr ⟨hb, hle⟩⟩

theorem leaders_eq_singleton_iff {a : Text} :
    m.leaders = [a] ↔ a ∈ m.leaders ∧ ∀ b ∈ m.leaders, b = a := by
  constructor
  · intro h
    simp [h]
  · rintro ⟨ha, honly⟩
    refine List.perm_singleton.mp ?_
    rw [List.perm_ext_iff_of_nodup m.nodup_leaders (List.nodup_singleton a)]
    intro b
    rw [List.mem_singleton]
    exact ⟨honly b, fun hb => hb ▸ ha⟩

theorem best?_eq_some_iff {a : Text} : m.best? = some a ↔ m.leaders = [a] := by
  unfold best?
  split <;> simp_all

theorem best?_eq_some_iff_score_lt {a : Text} :
    m.best? = some a ↔
      a ∈ m.alternatives ∧ ∀ b ∈ m.alternatives, b ≠ a → m.score b < m.score a := by
  rw [best?_eq_some_iff, leaders_eq_singleton_iff]
  constructor
  · rintro ⟨ha, honly⟩
    obtain ⟨hmem, htop⟩ := mem_leaders.mp ha
    refine ⟨hmem, fun b hb hne => lt_of_le_of_ne (htop b hb) fun hsame => hne ?_⟩
    exact honly b (mem_leaders.mpr ⟨hb, fun c hc => hsame ▸ htop c hc⟩)
  · rintro ⟨hmem, hlt⟩
    refine ⟨mem_leaders.mpr ⟨hmem, fun b hb => ?_⟩, fun b hb => ?_⟩
    · by_cases hne : b = a
      · rw [hne]
      · exact (hlt b hb hne).le
    · by_contra hne
      obtain ⟨hb, htop⟩ := mem_leaders.mp hb
      exact absurd (hlt b hb hne) (not_lt.mpr (htop a hmem))

/-- Two matrices agree on the best alternative if they agree on which of two
alternatives scores higher. -/
theorem best?_congr {m' : Matrix} (hmem : ∀ a, a ∈ m'.alternatives ↔ a ∈ m.alternatives)
    (hlt : ∀ a ∈ m.alternatives, ∀ b ∈ m.alternatives,
      (m'.score b < m'.score a ↔ m.score b < m.score a)) : m'.best? = m.best? := by
  ext a
  simp only [best?_eq_some_iff_score_lt, hmem]
  refine and_congr_right fun ha => forall₂_congr fun b hb => ?_
  rw [hlt a ha b hb]

/-! ### Dominance and the top -/

theorem not_mem_dominated_of_mem_leaders {a : Text} (ha : a ∈ m.leaders) : a ∉ m.dominated := by
  intro hdominated
  obtain ⟨-, b, hb, -, hdom⟩ := mem_dominated.mp hdominated
  have hlt := score_lt_of_dominates hdom
  have hle := (mem_leaders.mp ha).2 b hb
  omega

/-- What holds of an alternative as soon as it holds of all that dominate it, holds
of every alternative. -/
theorem dominator_induction {P : Text → Prop}
    (step : ∀ a ∈ m.alternatives,
      (∀ b ∈ m.alternatives, m.dominates b a = true → P b) → P a)
    {a : Text} (ha : a ∈ m.alternatives) : P a := by
  obtain ⟨t, ht⟩ := exists_topScore ha
  have hle := (topScore?_eq_some_iff.mp ht).2
  -- the distance to the top score shrinks with every step
  induction hn : (t - m.score a).toNat using Nat.strong_induction_on generalizing a with
  | _ n ih =>
      refine step a ha fun b hb hdom => ih _ ?_ hb rfl
      have hlt := score_lt_of_dominates hdom
      have hbound := hle b hb
      omega

end DecisionCycle.Matrix
