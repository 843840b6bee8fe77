import DecisionCycle.Number.Text
import Mathlib.Tactic

/-!
The characters of a number that is written out: digits, signs, a point and the letter
before an exponent. So its text is never a word.
-/

namespace DecisionCycle.Number

def IsNumeric (c : Char) : Prop :=
  c.isDigit = true ∨ c ∈ ['-', '+', '.', 'e']

theorem isNumeric_of_mem_toDigits {c : Char} {n : Nat} (h : c ∈ Nat.toDigits 10 n) :
    IsNumeric c :=
  .inl (Nat.isDigit_of_mem_toDigits (by omega) (by omega) h)

theorem isNumeric_of_mem_replicate {c : Char} {n : Nat} (h : c ∈ List.replicate n '0') :
    IsNumeric c := by
  rw [List.eq_of_mem_replicate h]
  exact .inl rfl

theorem isNumeric_of_mem_exponentText {c : Char} {e : Int} (h : c ∈ exponentText e) :
    IsNumeric c := by
  simp only [exponentText, List.mem_cons, List.mem_append] at h
  rcases h with rfl | rfl | h | h
  · exact .inr (by decide)
  · split <;> exact .inr (by decide)
  · exact isNumeric_of_mem_replicate h
  · exact isNumeric_of_mem_toDigits h

variable {digits : List Char} (hdigits : ∀ c ∈ digits, IsNumeric c)
include hdigits

theorem isNumeric_of_mem_positional {c : Char} {point : Int} (h : c ∈ positional digits point) :
    IsNumeric c := by
  have hpoint : IsNumeric '.' := .inr (by decide)
  have hzero : IsNumeric '0' := .inl rfl
  unfold positional at h
  split at h
  · rcases List.mem_cons.mp h with rfl | h
    · exact hzero
    · exact (List.mem_cons.mp h).elim (· ▸ hpoint) (hdigits c)
  · split at h
    · simp only [List.mem_append, List.mem_cons, List.not_mem_nil, or_false] at h
      rcases h with (h | h) | rfl | rfl
      · exact hdigits c h
      · exact isNumeric_of_mem_replicate h
      · exact hpoint
      · exact hzero
    · rcases List.mem_append.mp h with h | h
      · exact hdigits c (List.mem_of_mem_take h)
      · exact (List.mem_cons.mp h).elim (· ▸ hpoint) fun h => hdigits c (List.mem_of_mem_drop h)
  · simp only [List.mem_cons, List.mem_append] at h
    rcases h with rfl | rfl | h | h
    · exact hzero
    · exact hpoint
    · exact isNumeric_of_mem_replicate h
    · exact hdigits c h

theorem isNumeric_of_mem_scientific {c : Char} {e : Int} (h : c ∈ scientific digits e) :
    IsNumeric c := by
  unfold scientific at h
  split at h
  · cases h
  · rcases List.mem_cons.mp h with rfl | h
    · exact hdigits c List.mem_cons_self
    · exact isNumeric_of_mem_exponentText h
  · simp only [List.mem_cons, List.mem_append] at h
    rcases h with rfl | rfl | h | h
    · exact hdigits c List.mem_cons_self
    · exact .inr (by decide)
    · exact hdigits c (List.mem_cons_of_mem _ h)
    · exact isNumeric_of_mem_exponentText h

omit hdigits

theorem isNumeric_of_mem_magnitudeText {c : Char} {mantissa : Nat} {exponent : Int}
    (h : c ∈ magnitudeText mantissa exponent) : IsNumeric c := by
  have hstripped (n : Nat) : ∀ d ∈ (stripZeros (Nat.toDigits 10 n)).1, IsNumeric d := by
    intro d hd
    refine isNumeric_of_mem_toDigits (n := n) ?_
    simpa using (List.dropWhile_sublist _).mem (List.mem_reverse.mp hd)
  unfold magnitudeText at h
  split at h
  · revert h
    simp only [List.mem_cons, List.not_mem_nil, or_false]
    rintro (rfl | rfl | rfl)
    exacts [.inl rfl, .inr (by decide), .inl rfl]
  · dsimp only at h
    split at h
    · exact isNumeric_of_mem_positional (hstripped _) h
    · exact isNumeric_of_mem_scientific (hstripped _) h

theorem isNumeric_of_mem_text {c : Char} {negative : Bool} {mantissa : Nat} {exponent : Int}
    (h : c ∈ (text (.finite negative mantissa exponent)).toList) : IsNumeric c := by
  rw [text, String.toList_ofList] at h
  rcases List.mem_append.mp h with h | h
  · split at h
    · rw [List.mem_singleton.mp h]
      exact .inr (by decide)
    · cases h
  · exact isNumeric_of_mem_magnitudeText h

end DecisionCycle.Number
