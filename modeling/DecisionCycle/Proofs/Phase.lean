import DecisionCycle.Phase
import Mathlib.Tactic

/-!
The working phases by their places. A phase is a working phase if its index is below
eight, the phases below an index are the first so many, and no two phases share an index.
-/

namespace DecisionCycle.Phase

variable {p q : Phase} {k : Nat}

theorem take_working (k : Nat) : working.take k = working.filter fun p => p.index < k := by
  by_cases hk : k ≤ 8
  · interval_cases k <;> rfl
  · have hall : ∀ p ∈ working, decide (p.index < k) = true := fun p _ => by
      have : p.index ≤ 8 := by cases p <;> decide
      simp; omega
    rw [List.filter_eq_self.mpr hall]
    exact List.take_of_length_le (by simp [working, all]; omega)

theorem isWorking_iff_index_lt : p.IsWorking ↔ p.index < 8 := by
  cases p <;> decide

theorem mem_take_working : p ∈ working.take k ↔ p.IsWorking ∧ p.index < k := by
  rw [take_working, List.mem_filter, mem_working, decide_eq_true_iff]

theorem exists_index_eq (hk : k < 8) : ∃ p : Phase, p.IsWorking ∧ p.index = k := by
  interval_cases k
  exacts [⟨issueRaising, by decide⟩, ⟨problemFrame, by decide⟩, ⟨objectives, by decide⟩,
    ⟨alternatives, by decide⟩, ⟨consequences, by decide⟩, ⟨tradeoffs, by decide⟩,
    ⟨recommendation, by decide⟩, ⟨decisionQuality, by decide⟩]

theorem index_injective (h : p.index = q.index) : p = q := by
  revert h
  cases p <;> cases q <;> simp [index]

theorem getElem?_working_index (hp : p.IsWorking) : working[p.index]? = some p := by
  cases p <;> first | rfl | exact absurd rfl hp

theorem getElem?_working_eq_some_iff : working[k]? = some p ↔ p.IsWorking ∧ p.index = k := by
  constructor
  · intro h
    obtain ⟨hk, -⟩ := List.getElem?_eq_some_iff.mp h
    obtain ⟨q, hq, rfl⟩ := exists_index_eq hk
    rw [getElem?_working_index hq] at h
    cases h
    exact ⟨hq, rfl⟩
  · rintro ⟨hp, rfl⟩
    exact getElem?_working_index hp

end DecisionCycle.Phase
