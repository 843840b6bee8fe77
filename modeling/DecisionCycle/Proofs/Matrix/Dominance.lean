import DecisionCycle.Tension
import Mathlib.Tactic

/-!
Dominance read off the search for it: what it means that one alternative
dominates another, which alternatives are dominated, and that those left over
are dominated by no declared alternative. Dominance is all in the objectives on
which one alternative is better than another, so matrices that agree on these
agree on who dominates whom. Likewise for irrelevance: which objectives are
reported, and with which rating.
-/

namespace DecisionCycle.Matrix

theorem dominates_iff {m : Matrix} {a b : Text} :
    m.dominates a b = true ↔
      (∀ o ∈ m.objectives, m.rating b o ≤ m.rating a o) ∧
        ∃ o ∈ m.objectives, m.rating b o < m.rating a o := by
  simp [dominates]

theorem dominates_irrefl (m : Matrix) (a : Text) : m.dominates a a = false := by
  simp [dominates]

theorem ne_of_dominates {m : Matrix} {a b : Text} (h : m.dominates a b = true) : a ≠ b := by
  rintro rfl
  rw [dominates_irrefl] at h
  cases h

theorem dominates_trans {m : Matrix} {a b c : Text} (hab : m.dominates a b = true)
    (hbc : m.dominates b c = true) : m.dominates a c = true := by
  rw [dominates_iff] at *
  obtain ⟨hle, o, ho, hlt⟩ := hab
  refine ⟨fun o ho => (hbc.1 o ho).trans (hle o ho), o, ho, ?_⟩
  exact (hbc.1 o ho).trans_lt hlt

theorem dominates_asymm {m : Matrix} {a b : Text} (h : m.dominates a b = true) :
    m.dominates b a = false := by
  by_contra hba
  rw [Bool.not_eq_false] at hba
  exact ne_of_dominates (dominates_trans h hba) rfl

theorem dominates_iff_betterOn {m : Matrix} {a b : Text} :
    m.dominates a b = true ↔ m.betterOn b a = [] ∧ m.betterOn a b ≠ [] := by
  simp [dominates_iff, betterOn, List.filter_eq_nil_iff]

/-- Two matrices agree on a dominance if the same alternative is better on some
objective, and likewise the other way round. -/
theorem dominates_congr {m m' : Matrix} {a b : Text}
    (hab : m'.betterOn a b = [] ↔ m.betterOn a b = [])
    (hba : m'.betterOn b a = [] ↔ m.betterOn b a = []) : m'.dominates a b = m.dominates a b := by
  rw [Bool.eq_iff_iff, dominates_iff_betterOn, dominates_iff_betterOn]
  exact and_congr hba (not_congr hab)

/-- A dominance outlasts every change that lowers no rating of the one that dominates and
raises none of the other. -/
theorem dominates_of_le {m m' : Matrix} {a b : Text} (hobj : m'.objectives = m.objectives)
    (ha : ∀ o ∈ m.objectives, m.rating a o ≤ m'.rating a o)
    (hb : ∀ o ∈ m.objectives, m'.rating b o ≤ m.rating b o) (h : m.dominates a b = true) :
    m'.dominates a b = true := by
  rw [dominates_iff] at h
  obtain ⟨hle, o, ho, hlt⟩ := h
  rw [dominates_iff, hobj]
  refine ⟨fun p hp => ((hb p hp).trans (hle p hp)).trans (ha p hp), o, ho, ?_⟩
  exact ((hb o ho).trans_lt hlt).trans_le (ha o ho)

theorem dominator?_eq_some {m : Matrix} {a b : Text} (h : m.dominator? b = some a) :
    a ∈ m.alternatives ∧ a ≠ b ∧ m.dominates a b = true := by
  have hfound := List.find?_some h
  rw [Bool.and_eq_true, bne_iff_ne] at hfound
  exact ⟨List.mem_of_find?_eq_some h, hfound⟩

theorem isSome_dominator?_iff {m : Matrix} {b : Text} :
    (m.dominator? b).isSome = true ↔
      ∃ a ∈ m.alternatives, a ≠ b ∧ m.dominates a b = true := by
  simp [dominator?]

theorem dominator?_congr {m m' : Matrix} {b : Text} (halt : m'.alternatives = m.alternatives)
    (hdom : ∀ a ∈ m.alternatives, m'.dominates a b = m.dominates a b) :
    m'.dominator? b = m.dominator? b := by
  rw [dominator?, dominator?, halt]
  exact List.find?_congr fun a ha => by rw [hdom a ha]

/-- The entries of dominated alternatives are all in the objectives on which one declared
alternative is better than another. -/
theorem dominations_congr {m m' : Matrix} (halt : m'.alternatives = m.alternatives)
    (hbetter : ∀ a ∈ m.alternatives, ∀ b ∈ m.alternatives, m'.betterOn a b = m.betterOn a b) :
    m'.dominations = m.dominations := by
  rw [dominations, dominations, halt]
  refine List.filterMap_congr fun b hb => ?_
  have hdom : ∀ a ∈ m.alternatives, m'.dominates a b = m.dominates a b := fun a ha =>
    dominates_congr (by rw [hbetter a ha b hb]) (by rw [hbetter b hb a ha])
  rw [dominator?_congr halt hdom]
  cases hd : m.dominator? b with
  | none => rfl
  | some a =>
      have ha : a ∈ m.alternatives := (dominator?_eq_some hd).1
      rw [Option.map_some, Option.map_some, hbetter a ha b hb]

theorem mem_dominated {m : Matrix} {b : Text} :
    b ∈ m.dominated ↔
      b ∈ m.alternatives ∧ ∃ a ∈ m.alternatives, a ≠ b ∧ m.dominates a b = true := by
  rw [← isSome_dominator?_iff, dominated, dominations, List.mem_map]
  constructor
  · rintro ⟨d, hd, rfl⟩
    obtain ⟨b, hb, hdom⟩ := List.mem_filterMap.mp hd
    obtain ⟨a, ha, rfl⟩ := Option.map_eq_some_iff.mp hdom
    exact ⟨hb, by rw [ha]; rfl⟩
  · rintro ⟨hb, hdom⟩
    obtain ⟨a, ha⟩ := Option.isSome_iff_exists.mp hdom
    exact ⟨_, List.mem_filterMap.mpr ⟨b, hb, by rw [ha]; rfl⟩, rfl⟩

theorem mem_viable {m : Matrix} {excluded : List Text} {a : Text} :
    a ∈ m.viable excluded ↔ a ∈ m.alternatives ∧ a ∉ excluded := by
  simp [viable]

/-- What is left over when the dominated alternatives are left out is dominated by
no alternative at all. -/
theorem not_dominates_of_mem_viable {m : Matrix} {a b : Text}
    (hb : b ∈ m.viable m.dominated) (ha : a ∈ m.alternatives) : m.dominates a b = false := by
  rw [mem_viable, mem_dominated] at hb
  by_contra hdom
  rw [Bool.not_eq_false] at hdom
  exact hb.2 ⟨hb.1, a, ha, ne_of_dominates hdom, hdom⟩

/-! ### Irrelevant objectives -/

theorem uniformRating?_eq_some_iff {m : Matrix} {o : Text} {r : Int} :
    m.uniformRating? o = some r ↔
      m.alternatives ≠ [] ∧ ∀ a ∈ m.alternatives, m.rating a o = r := by
  unfold uniformRating?
  cases m.alternatives with
  | nil => simp
  | cons a rest =>
      simp only [List.map_cons, Option.ite_none_right_eq_some, List.all_map]
      constructor
      · rintro ⟨hall, hr⟩
        cases hr
        simpa using hall
      · rintro ⟨-, hall⟩
        obtain ⟨rfl, hrest⟩ := List.forall_mem_cons.mp hall
        simpa using hrest

theorem mem_irrelevances {m : Matrix} {i : Irrelevance} :
    i ∈ m.irrelevances ↔
      2 ≤ m.alternatives.length ∧ i.objective ∈ m.objectives ∧
        ∀ a ∈ m.alternatives, m.rating a i.objective = i.rating := by
  by_cases hfew : m.alternatives.length < 2
  · rw [irrelevances, if_pos hfew]
    exact iff_of_false List.not_mem_nil fun h => by omega
  · rw [irrelevances, if_neg hfew, List.mem_filterMap]
    constructor
    · rintro ⟨o, ho, hi⟩
      obtain ⟨r, hr, rfl⟩ := Option.map_eq_some_iff.mp hi
      exact ⟨not_lt.mp hfew, ho, (uniformRating?_eq_some_iff.mp hr).2⟩
    · rintro ⟨htwo, ho, hall⟩
      have hne : m.alternatives ≠ [] := List.ne_nil_of_length_pos (by omega)
      exact ⟨i.objective, ho, by rw [uniformRating?_eq_some_iff.mpr ⟨hne, hall⟩]; rfl⟩

end DecisionCycle.Matrix
