import DecisionCycle.Proofs.Quality.RoundTrip

/-!
Elements put together from two lists, and elements in another order. The overall score, the
verdict, the weakest element and the names that are missing can be told from what they are
for the two lists, and the order of priority is a merge of the two orders. A merge that
prefers the first list is in order, and it keeps those of one score in their order, the
first list before the second; this leaves only one list that it can be.
-/

namespace DecisionCycle

/-! ### Lists in ascending order -/

section Ascending

variable {α β : Type} [LinearOrder β] {key : α → β} {l l' : List α} {a b : α}

theorem key_le_of_mem_cons (h : (b :: l).Pairwise fun x y => key x ≤ key y) (ha : a ∈ b :: l) :
    key b ≤ key a := by
  rcases List.mem_cons.mp ha with rfl | ha
  · exact le_rfl
  · exact List.rel_of_pairwise_cons h ha

theorem mem_iff_of_filter_key_eq
    (h : ∀ k, (l.filter fun x => key x = k) = l'.filter fun x => key x = k) (x : α) :
    x ∈ l ↔ x ∈ l' := by
  simpa using congrArg (x ∈ ·) (h (key x))

theorem eq_of_filter_key_eq (hl : l.Pairwise fun x y => key x ≤ key y)
    (hl' : l'.Pairwise fun x y => key x ≤ key y)
    (h : ∀ k, (l.filter fun x => key x = k) = l'.filter fun x => key x = k) : l = l' := by
  induction l generalizing l' with
  | nil =>
      refine (List.eq_nil_iff_forall_not_mem.mpr fun x hx => ?_).symm
      exact List.not_mem_nil ((mem_iff_of_filter_key_eq h x).mpr hx)
  | cons a rest ih =>
      have hmem := mem_iff_of_filter_key_eq h
      cases l' with
      | nil => exact absurd ((hmem a).mp List.mem_cons_self) List.not_mem_nil
      | cons b rest' =>
          have hkey : key a = key b :=
            le_antisymm (key_le_of_mem_cons hl ((hmem b).mpr List.mem_cons_self))
              (key_le_of_mem_cons hl' ((hmem a).mp List.mem_cons_self))
          -- both come first of their key, so they are the same
          have hfirst := h (key a)
          simp only [List.filter_cons, hkey, decide_true, if_true, List.cons.injEq] at hfirst
          obtain ⟨rfl, -⟩ := hfirst
          have hrest (k : β) :
              (rest.filter fun x => key x = k) = rest'.filter fun x => key x = k := by
            have hk := h k
            simp only [List.filter_cons] at hk
            split at hk
            · exact (List.cons.inj hk).2
            · exact hk
          rw [ih hl.of_cons hl'.of_cons hrest]

/-- A merge keeps the members of each key in their order, the first list before the second. -/
theorem filter_merge (hl : l.Pairwise fun x y => key x ≤ key y) (k : β) :
    ((l.merge l' fun x y => key x ≤ key y).filter fun x => key x = k) =
      (l.filter fun x => key x = k) ++ l'.filter fun x => key x = k := by
  fun_induction List.merge l l' (fun x y => decide (key x ≤ key y)) with
  | case1 => rfl
  | case2 => simp
  | case3 a rest b rest' hab ih =>
      rw [List.filter_cons, ih hl.of_cons, List.filter_cons (x := a)]
      split <;> rfl
  | case4 a rest b rest' hab ih =>
      rw [List.filter_cons, ih hl]
      split
      case isFalse hb => simp [List.filter_cons, hb]
      case isTrue hb =>
        -- what the second list is ahead with is below all that is left of the first
        have hnone : ((a :: rest).filter fun x => key x = k) = [] := by
          rw [List.filter_eq_nil_iff]
          intro x hx
          have hle := key_le_of_mem_cons hl hx
          simp only [decide_eq_true_iff] at hab hb ⊢
          exact fun hxk => hab (hle.trans (hxk.trans hb.symm).le)
        rw [hnone, List.nil_append, List.nil_append, List.filter_cons, if_pos hb]

end Ascending

namespace Element

variable {xs ys : List Element}

/-! ### Two lists -/

theorem overall_append (hxs : xs ≠ []) (hys : ys ≠ []) :
    overall (xs ++ ys) = min (overall xs) (overall ys) := by
  have hne : xs ++ ys ≠ [] := by simp [hxs]
  refine eq_of_forall_le_iff fun s => ?_
  rw [le_min_iff, le_overall_iff hne, le_overall_iff hxs, le_overall_iff hys,
    List.forall_mem_append]

theorem isAcceptable_append (hxs : xs ≠ []) (hys : ys ≠ []) :
    isAcceptable (xs ++ ys) = true ↔ isAcceptable xs = true ∧ isAcceptable ys = true := by
  simp [isAcceptable, hxs, hys]

theorem exists_weakest_append (hxs : xs ≠ []) (hys : ys ≠ []) :
    ∃ a b, weakest? xs = some a ∧ weakest? ys = some b ∧
      weakest? (xs ++ ys) = some (if b.score < a.score then b else a) := by
  obtain ⟨a, ha⟩ := exists_weakest hxs
  obtain ⟨b, hb⟩ := exists_weakest hys
  refine ⟨a, b, ha, hb, ?_⟩
  unfold weakest? at ha hb ⊢
  rw [List.minOn?_append, ha, hb, Option.merge_some_some, minOn]
  by_cases hab : a.score ≤ b.score
  · rw [if_pos hab, if_neg (not_lt.mpr hab)]
  · rw [if_neg hab, if_pos (not_le.mp hab)]

theorem byPriority_append (xs ys : List Element) :
    byPriority (xs ++ ys) =
      (byPriority xs).merge (byPriority ys) fun a b => a.score ≤ b.score := by
  refine eq_of_filter_key_eq (pairwise_byPriority (xs ++ ys)) ?_ fun s => ?_
  · refine (List.pairwise_merge score_le_trans score_le_total _ _ ?_ ?_).imp of_decide_eq_true
    · exact (pairwise_byPriority xs).imp decide_eq_true
    · exact (pairwise_byPriority ys).imp decide_eq_true
  · rw [filter_merge (pairwise_byPriority xs), filter_byPriority, filter_byPriority,
      filter_byPriority, List.filter_append]

theorem missing_append (xs ys : List Element) :
    missing (xs ++ ys) =
      standardNames.filter fun name => name ∈ missing xs ∧ name ∈ missing ys := by
  refine List.filter_congr fun name hname => ?_
  rw [Bool.eq_iff_iff, decide_eq_true_iff, mem_missing_iff, mem_missing_iff]
  simp [hname]

/-! ### Another order -/

theorem map_score_byPriority_eq_of_perm (h : xs.Perm ys) :
    (byPriority xs).map score = (byPriority ys).map score := by
  have hperm : ((byPriority xs).map score).Perm ((byPriority ys).map score) :=
    (((byPriority_perm xs).trans h).trans (byPriority_perm ys).symm).map score
  have hsorted (es : List Element) : ((byPriority es).map score).Pairwise (· ≤ ·) :=
    List.pairwise_map.mpr (pairwise_byPriority es)
  exact hperm.eq_of_pairwise' (hsorted xs) (hsorted ys)

/-- What comes of two lists of elements put together, in what comes of each, and what comes
of the elements of one of them in another order. -/
structure Combines (xs ys : List Element) : Prop where
  overall : xs ≠ [] → ys ≠ [] →
    Element.overall (xs ++ ys) = min (Element.overall xs) (Element.overall ys)
  acceptable : xs ≠ [] → ys ≠ [] →
    (isAcceptable (xs ++ ys) = true ↔ isAcceptable xs = true ∧ isAcceptable ys = true)
  weakest : xs ≠ [] → ys ≠ [] → ∃ a b, weakest? xs = some a ∧ weakest? ys = some b ∧
    weakest? (xs ++ ys) = some (if b.score < a.score then b else a)
  sorted : byPriority (xs ++ ys) =
    (byPriority xs).merge (byPriority ys) fun a b => a.score ≤ b.score
  missing : Element.missing (xs ++ ys) = Element.standardNames.filter fun name =>
    name ∈ Element.missing xs ∧ name ∈ Element.missing ys
  rearranged {zs : List Element} : zs.Perm xs →
    Element.overall zs = Element.overall xs ∧ isAcceptable zs = isAcceptable xs ∧
      Element.missing zs = Element.missing xs ∧
      (byPriority zs).map score = (byPriority xs).map score

/-- **Elements combine.** What is told of two lists of elements together follows from what is
told of each of them, and apart from ties it does not depend on the order of the elements. -/
theorem elements_combine (xs ys : List Element) : Combines xs ys where
  overall := overall_append
  acceptable := isAcceptable_append
  weakest := exists_weakest_append
  sorted := byPriority_append xs ys
  missing := missing_append xs ys
  rearranged h :=
    ⟨overall_eq_of_perm (h.map score), isAcceptable_eq_of_perm (h.map score),
      missing_eq_of_perm (h.map name), map_score_byPriority_eq_of_perm h⟩

/-- No elements at all count as a score of zero, which is not the least one of what is put
together, and they are not acceptable. -/
example :
    let e : Element :=
      { name := "Clear Objectives", score := 80, rationale := .null, improvement := .null }
    overall ([] ++ [e]) = 80 ∧ overall [] = 0 ∧
      isAcceptable ([] ++ [e]) = true ∧ isAcceptable [] = false := by
  decide

end Element

end DecisionCycle
