import DecisionCycle.Proofs.Quality.Order
import DecisionCycle.Proofs.Table

/-!
Writing an element and reading it again. A score is in range already, the priority is not
read, and there is no second field to take a way of improvement from. So an element comes
back as it was, but for a way of improvement that does not count as given, which comes
back as nothing. What is computed from elements hangs on their names and scores alone, and
not on their order as far as it says nothing about order.
-/

namespace DecisionCycle

namespace Score

@[simp] theorem clamp_val (s : Score) : clamp s.val = s := by
  have hs := s.isLt
  ext
  simp only [clamp]
  omega

theorem ofPayload_int_val (s : Score) : ofPayload (.int s.val) = .ok s :=
  congrArg Except.ok (clamp_val s)

end Score

namespace Element

variable {es es' : List Element}

def reread (e : Element) : Element :=
  { e with improvement := e.improvement.orElse .null }

@[simp] theorem name_reread (e : Element) : e.reread.name = e.name := rfl

@[simp] theorem score_reread (e : Element) : e.reread.score = e.score := rfl

@[simp] theorem reread_reread (e : Element) : e.reread.reread = e.reread := by
  simp [reread]

theorem ofPayload_toPayload (e : Element) : ofPayload e.toPayload = .ok e.reread := by
  simp [ofPayload, toPayload, reread, Value.field, Value.fieldOr, Value.require, Value.lookup?,
    Score.ofPayload_int_val, bind, Except.bind, pure, Except.pure]

theorem mapM_ofPayload_toPayload (es : List Element) :
    (es.map toPayload).mapM ofPayload = .ok (es.map reread) := by
  induction es with
  | nil => rfl
  | cons e es ih =>
      rw [List.map_cons, List.mapM_cons, ofPayload_toPayload, ih]
      rfl

/-! ### What hangs on names and scores alone -/

theorem eq_nil_iff_of_perm (h : (es.map score).Perm (es'.map score)) : es = [] ↔ es' = [] := by
  rw [← List.map_eq_nil_iff (f := score), perm_eq_nil_iff h, List.map_eq_nil_iff]

theorem overall_eq_of_perm (h : (es.map score).Perm (es'.map score)) :
    overall es = overall es' := by
  by_cases hne : es = []
  · rw [hne, (eq_nil_iff_of_perm h).mp hne]
  · have hne' : es' ≠ [] := mt (eq_nil_iff_of_perm h).mpr hne
    refine eq_of_forall_le_iff fun s => ?_
    rw [le_overall_iff hne, le_overall_iff hne', ← List.forall_mem_map (f := score) (P := (s ≤ ·)),
      ← List.forall_mem_map (f := score) (P := (s ≤ ·))]
    simp only [h.mem_iff]

theorem isAcceptable_eq_of_perm (h : (es.map score).Perm (es'.map score)) :
    isAcceptable es = isAcceptable es' := by
  rw [Bool.eq_iff_iff, isAcceptable_iff, isAcceptable_iff, overall_eq_of_perm h, ne_eq, ne_eq,
    eq_nil_iff_of_perm h]

theorem missing_eq_of_perm (h : (es.map name).Perm (es'.map name)) :
    missing es = missing es' := by
  refine List.filter_congr fun standard _ => ?_
  have hany := h.any_eq (f := fun name => name == (standard : Text))
  rw [List.any_map, List.any_map] at hany
  exact congrArg not hany

theorem byPriority_map {f : Element → Element} (hf : ∀ e, (f e).score = e.score)
    (es : List Element) : byPriority (es.map f) = (byPriority es).map f := by
  refine (List.map_mergeSort fun a _ b _ => ?_).symm
  rw [hf, hf]

theorem byPriority_byPriority (es : List Element) : byPriority (byPriority es) = byPriority es :=
  List.mergeSort_of_pairwise ((pairwise_byPriority es).imp decide_eq_true)

end Element

end DecisionCycle
