import DecisionCycle.Proofs.FirstLeast
import DecisionCycle.Tension

/-!
Tensions at a glance. Of the tensions that are equally balanced the first one is named, and
of those that are equally strong the last one. Both are found by a search that stops at the
first extreme: the second search goes through the list from its end.
-/

namespace DecisionCycle.Tension

structure Picks (ts : List Tension) (s : TensionSummary) : Prop where
  total : s.total = ts.length
  balanced : ∃ t, IsFirstLeast (fun t => |(t.gains.length : ℤ) - t.losses.length|) ts t ∧
    s.mostBalanced = some t.alternative
  polarizing : ∃ t, IsLastGreatest (fun t => t.gains.length + t.losses.length) ts t ∧
    s.mostPolarizing = some t.alternative
  winners : clearWinners ts = ts.filter fun t => t.gains ≠ [] ∧ t.losses = []
  winner_iff : s.hasClearWinner = true ↔ clearWinners ts ≠ []

variable {ts : List Tension}

theorem exists_mostBalanced (hne : ts ≠ []) :
    ∃ t, IsFirstLeast (fun t => |(t.gains.length : ℤ) - t.losses.length|) ts t ∧
      (summarize ts).mostBalanced = some t.alternative := by
  obtain ⟨t, ht⟩ : ∃ t, ts.minOn? imbalance = some t :=
    Option.isSome_iff_exists.mp (List.isSome_minOn?_iff.mpr hne)
  have habs (t : Tension) : |(t.gains.length : ℤ) - t.losses.length| = (t.imbalance : ℤ) :=
    (Int.natCast_natAbs _).symm
  refine ⟨t, ?_, by rw [summarize, ht, Option.map_some]⟩
  simpa only [IsFirstLeast, habs, Nat.cast_lt, Nat.cast_le] using isFirstLeast_of_minOn? ht

theorem exists_mostPolarizing (hne : ts ≠ []) :
    ∃ t, IsLastGreatest (fun t => t.gains.length + t.losses.length) ts t ∧
      (summarize ts).mostPolarizing = some t.alternative := by
  have hreverse : ts.reverse ≠ [] := by simpa using hne
  obtain ⟨t, ht⟩ : ∃ t, ts.reverse.maxOn? intensity = some t :=
    Option.isSome_iff_exists.mp (List.isSome_maxOn?_iff.mpr hreverse)
  exact ⟨t, isLastGreatest_of_reverse_maxOn? ht, by rw [summarize, ht, Option.map_some]⟩

/-- **Tensions at a glance.** The summary of some tensions names the first one whose gains
and losses are nearest to each other in number and the last one that has most of both, and
it tells of a clear winner exactly if there is one. -/
theorem summarize_picks (hne : ts ≠ []) : Picks ts (summarize ts) where
  total := rfl
  balanced := exists_mostBalanced hne
  polarizing := exists_mostPolarizing hne
  winners := by
    refine List.filter_congr fun t _ => ?_
    rw [isClearWinner, Bool.eq_iff_iff]
    simp [List.isEmpty_iff]
  winner_iff := by
    rw [summarize, clearWinners, ne_eq, List.filter_eq_nil_iff, List.any_eq_true]
    push Not
    rfl

/-- Ties of both kinds: two tensions are equally balanced, and all are equally strong but
one. -/
theorem summarize_picks_ties :
    let ts : List Tension :=
      [⟨"A", ["Cost", "Speed"], []⟩, ⟨"B", ["Cost"], ["Speed"]⟩, ⟨"C", ["Speed"], ["Cost"]⟩,
        ⟨"D", [], ["Cost"]⟩]
    ts ≠ [] ∧ Picks ts (summarize ts) ∧ (summarize ts).mostBalanced = some "B" ∧
      (summarize ts).mostPolarizing = some "C" :=
  ⟨by decide, summarize_picks (by decide), by decide, by decide⟩

end DecisionCycle.Tension
