import Mathlib.Tactic

/-!
Searching a list for a least or a greatest member. Of several least members the search finds
the first one, so that what stands before it is above it; and the greatest members of a list
are the least ones in the opposite order. Where the list is searched from its end, it is the
last one that is found.
-/

namespace DecisionCycle

/-! ### Least and greatest elements of an image -/

section Image

variable {α β κ : Type} [LE κ] [DecidableLE κ]

theorem minOn?_map (f : β → κ) (g : α → β) (l : List α) :
    (l.map g).minOn? f = (l.minOn? fun a => f (g a)).map g := by
  cases l with
  | nil => rfl
  | cons a rest =>
      have hstep : ∀ x y, minOn f (g x) (g y) = g (minOn (fun a => f (g a)) x y) := by
        intro x y
        unfold minOn
        split <;> rfl
      change some ((rest.map g).foldl (minOn f) (g a)) = some (g _)
      rw [List.foldl_map, List.foldl_hom g hstep]

open scoped Std.OppositeOrderInstances in
theorem maxOn?_map (f : β → κ) (g : α → β) (l : List α) :
    (l.map g).maxOn? f = (l.maxOn? fun a => f (g a)).map g := by
  -- a greatest element is a least one in the opposite order
  rw [List.maxOn?_eq_minOn?, List.maxOn?_eq_minOn?]
  let : LE κ := LE.opposite inferInstance
  exact minOn?_map f g l

end Image

section Preorder

variable {α β : Type} [LE β] [DecidableLE β] [Std.IsLinearPreorder β] {f : α → β} {l : List α}
  {a : α}

theorem exists_split_of_minOn? (h : l.minOn? f = some a) :
    ∃ before after, l = before ++ a :: after ∧ (∀ b ∈ before, ¬f b ≤ f a) ∧
      ∀ b ∈ l, f a ≤ f b := by
  induction l generalizing a with
  | nil => cases h
  | cons b rest ih =>
      rw [List.minOn?_cons, Option.some.injEq] at h
      cases hrest : rest.minOn? f with
      | none =>
          have hnil : rest = [] := by
            by_contra hne
            have hsome : (rest.minOn? f).isSome := List.isSome_minOn?_iff.mpr hne
            simp [hrest] at hsome
          rw [hrest, Option.elim_none] at h
          subst hnil h
          exact ⟨[], [], rfl, nofun, by simp [Std.le_refl]⟩
      | some c =>
          obtain ⟨before, after, rfl, hbefore, hle⟩ := ih hrest
          rw [hrest, Option.elim_some, minOn] at h
          -- on a tie the search keeps what it has seen first
          split at h
          case isTrue hbc =>
            subst h
            exact ⟨[], _, rfl, nofun, List.forall_mem_cons.mpr
              ⟨Std.le_refl _, fun d hd => Std.le_trans hbc (hle d hd)⟩⟩
          case isFalse hbc =>
            subst h
            have hcb : f c ≤ f b := (Std.le_total (a := f b)).resolve_left hbc
            exact ⟨b :: before, after, rfl, List.forall_mem_cons.mpr ⟨hbc, hbefore⟩,
              List.forall_mem_cons.mpr ⟨hcb, hle⟩⟩

open scoped Std.OppositeOrderInstances in
theorem exists_split_of_maxOn? (h : l.maxOn? f = some a) :
    ∃ before after, l = before ++ a :: after ∧ (∀ b ∈ before, ¬f a ≤ f b) ∧
      ∀ b ∈ l, f b ≤ f a := by
  -- a greatest member is a least one in the opposite order
  rw [List.maxOn?_eq_minOn?] at h
  let : LE β := LE.opposite inferInstance
  simpa only [LE.le_opposite_iff] using exists_split_of_minOn? h

end Preorder

section Extremes

variable {α β : Type} [LinearOrder β] {f : α → β} {l : List α} {a : α}

/-- Nothing in a list is below a member of it, and what stands before that is above it. -/
def IsFirstLeast (f : α → β) (l : List α) (a : α) : Prop :=
  ∃ before after, l = before ++ a :: after ∧ (∀ b ∈ before, f a < f b) ∧ ∀ b ∈ l, f a ≤ f b

/-- Nothing in a list is above a member of it, and what stands after that is below it. -/
def IsLastGreatest (f : α → β) (l : List α) (a : α) : Prop :=
  ∃ before after, l = before ++ a :: after ∧ (∀ b ∈ after, f b < f a) ∧ ∀ b ∈ l, f b ≤ f a

theorem isFirstLeast_of_minOn? (h : l.minOn? f = some a) : IsFirstLeast f l a := by
  simpa only [IsFirstLeast, not_le] using exists_split_of_minOn? h

theorem isLastGreatest_of_reverse_maxOn? (h : l.reverse.maxOn? f = some a) :
    IsLastGreatest f l a := by
  obtain ⟨after, before, hsplit, hafter, hle⟩ := exists_split_of_maxOn? h
  simp only [not_le, List.mem_reverse] at hafter hle
  refine ⟨before.reverse, after.reverse, ?_, fun b hb => hafter b (List.mem_reverse.mp hb), hle⟩
  rw [← List.reverse_reverse l, hsplit]
  simp

end Extremes

end DecisionCycle
