import DecisionCycle.Proofs.FirstLeast
import DecisionCycle.Quality

/-!
Elements by their scores. The overall score is the least one. Sorting by priority is
stable: it leaves elements of one score in the order in which they were given. So the
first element after sorting is the first one with the least score that was given, and
that is the weakest element. The less the score, the more urgent the priority.
-/

namespace DecisionCycle

namespace Priority

def rank : Priority → Nat
  | critical => 0
  | high => 1
  | medium => 2
  | low => 3

theorem rank_le_low (p : Priority) : p.rank ≤ low.rank := by
  cases p <;> decide

theorem rank_banded_le {atMost atMost' : Int → Bool}
    (h : ∀ bound, atMost' bound = true → atMost bound = true) :
    (banded atMost).rank ≤ (banded atMost').rank := by
  unfold banded
  by_cases hcritical : atMost' criticalBound = true
  · rw [if_pos hcritical, if_pos (h _ hcritical)]
  by_cases hhigh : atMost' highBound = true
  · rw [if_neg hcritical, if_pos hhigh, if_pos (h _ hhigh)]
    split <;> decide
  by_cases hmedium : atMost' mediumBound = true
  · rw [if_neg hcritical, if_neg hhigh, if_pos hmedium, if_pos (h _ hmedium)]
    split
    · decide
    · split <;> decide
  · rw [if_neg hcritical, if_neg hhigh, if_neg hmedium]
    exact rank_le_low _

theorem rank_ofScore_le {s t : Score} (h : s ≤ t) : (ofScore s).rank ≤ (ofScore t).rank := by
  refine rank_banded_le fun bound ht => ?_
  rw [decide_eq_true_iff] at ht ⊢
  have hval : s.val ≤ t.val := h
  omega

end Priority

namespace Element

variable {es : List Element}

/-! ### The least score -/

theorem overall_cons_cons (a b : Element) (rest : List Element) :
    overall (a :: b :: rest) = min a.score (overall (b :: rest)) := by
  rw [overall, min_def]
  exact List.cons_ne_nil b rest

theorem overall_le {e : Element} (he : e ∈ es) : overall es ≤ e.score := by
  induction es with
  | nil => cases he
  | cons a rest ih =>
      cases rest with
      | nil => rw [List.mem_singleton.mp he, overall]
      | cons b rest =>
          rw [overall_cons_cons]
          rcases List.mem_cons.mp he with rfl | he
          · exact min_le_left _ _
          · exact (min_le_right _ _).trans (ih he)

theorem exists_overall (hne : es ≠ []) : ∃ e ∈ es, e.score = overall es := by
  induction es with
  | nil => exact absurd rfl hne
  | cons a rest ih =>
      cases rest with
      | nil => exact ⟨a, List.mem_singleton_self a, rfl⟩
      | cons b rest =>
          rw [overall_cons_cons]
          rcases min_choice a.score (overall (b :: rest)) with hmin | hmin
          · exact ⟨a, List.mem_cons_self, hmin.symm⟩
          · obtain ⟨e, he, hscore⟩ := ih (List.cons_ne_nil b rest)
            exact ⟨e, List.mem_cons_of_mem a he, hscore.trans hmin.symm⟩

/-- The overall score is the greatest one that all elements reach. -/
theorem le_overall_iff (hne : es ≠ []) {s : Score} :
    s ≤ overall es ↔ ∀ e ∈ es, s ≤ e.score := by
  constructor
  · intro hle e he
    exact hle.trans (overall_le he)
  · intro hall
    obtain ⟨e, he, hscore⟩ := exists_overall hne
    exact hscore ▸ hall e he

theorem exists_weakest (hne : es ≠ []) : ∃ e, weakest? es = some e :=
  Option.isSome_iff_exists.mp (List.isSome_minOn?_iff.mpr hne)

theorem weakest?_eq_find? (es : List Element) :
    weakest? es = es.find? fun e => e.score = overall es := by
  by_cases hne : es = []
  · rw [hne]
    rfl
  · obtain ⟨w, hw⟩ := exists_weakest hne
    obtain ⟨e, he, hscore⟩ := exists_overall hne
    obtain ⟨before, after, hsplit, hbefore, hle⟩ := isFirstLeast_of_minOn? hw
    have hmem : w ∈ es := by simp [hsplit]
    have hleast : w.score = overall es := le_antisymm (hscore ▸ hle e he) (overall_le hmem)
    rw [hw, eq_comm, List.find?_eq_some_iff_append]
    refine ⟨decide_eq_true hleast, before, after, hsplit, fun b hb => ?_⟩
    have habove : b.score ≠ overall es := hleast ▸ (hbefore b hb).ne'
    simp [habove]

/-! ### The order of priority -/

theorem byPriority_perm (es : List Element) : (byPriority es).Perm es :=
  List.mergeSort_perm es _

theorem score_le_trans (a b c : Element) (hab : decide (a.score ≤ b.score) = true)
    (hbc : decide (b.score ≤ c.score) = true) : decide (a.score ≤ c.score) = true :=
  decide_eq_true ((of_decide_eq_true hab).trans (of_decide_eq_true hbc))

theorem score_le_total (a b : Element) :
    (decide (a.score ≤ b.score) || decide (b.score ≤ a.score)) = true := by
  simpa using le_total a.score b.score

theorem pairwise_byPriority (es : List Element) :
    (byPriority es).Pairwise fun a b => a.score ≤ b.score :=
  (List.pairwise_mergeSort score_le_trans score_le_total es).imp of_decide_eq_true

theorem filter_byPriority (es : List Element) (s : Score) :
    (byPriority es).filter (fun e => e.score = s) = es.filter fun e => e.score = s := by
  -- what has one score is sorted as it stands, so sorting the whole keeps it as a sublist;
  -- it is all of that score, since nothing is lost
  have hsame : (es.filter fun e => e.score = s).Pairwise
      fun a b => decide (a.score ≤ b.score) = true := by
    refine List.pairwise_of_forall_mem_list fun a ha b hb => decide_eq_true ?_
    rw [of_decide_eq_true (List.mem_filter.mp ha).2, of_decide_eq_true (List.mem_filter.mp hb).2]
  have hsublist : (es.filter fun e => e.score = s).Sublist (byPriority es) :=
    List.sublist_mergeSort score_le_trans score_le_total hsame List.filter_sublist
  have hfiltered := hsublist.filter fun e => decide (e.score = s)
  simp only [List.filter_filter, Bool.and_self] at hfiltered
  exact (hfiltered.eq_of_length ((byPriority_perm es).filter _).length_eq.symm).symm

theorem head?_byPriority (es : List Element) :
    (byPriority es).head? = es.find? fun e => e.score = overall es := by
  rw [← List.head?_filter, ← filter_byPriority]
  have hmem : ∀ {e}, e ∈ byPriority es ↔ e ∈ es := (byPriority_perm es).mem_iff
  have hpairwise := pairwise_byPriority es
  cases hsorted : byPriority es with
  | nil => rfl
  | cons first rest =>
      rw [hsorted] at hmem hpairwise
      have hfirst : first ∈ es := hmem.mp List.mem_cons_self
      obtain ⟨e, he, hscore⟩ := exists_overall (List.ne_nil_of_mem hfirst)
      have hle : first.score ≤ e.score := by
        rcases List.mem_cons.mp (hmem.mpr he) with rfl | he
        · exact le_rfl
        · exact List.rel_of_pairwise_cons hpairwise he
      have hleast : first.score = overall es := le_antisymm (hscore ▸ hle) (overall_le hfirst)
      simp [hleast]

theorem weakest?_eq_head? (es : List Element) : weakest? es = (byPriority es).head? := by
  rw [weakest?_eq_find?, head?_byPriority]

/-! ### Acceptable decisions -/

theorem isAcceptable_iff :
    isAcceptable es = true ↔ es ≠ [] ∧ Score.acceptable ≤ (overall es).val := by
  rw [isAcceptable, Bool.and_eq_true, Bool.not_eq_true', List.isEmpty_eq_false_iff,
    List.all_eq_true]
  refine and_congr_right fun hne => ?_
  simp only [decide_eq_true_iff]
  exact (le_overall_iff hne (s := ⟨Score.acceptable, by decide⟩)).symm

theorem mem_missing_iff {name : String} :
    name ∈ missing es ↔ name ∈ standardNames ∧ ∀ e ∈ es, e.name ≠ (name : Text) := by
  simp [missing]

end Element

end DecisionCycle
