import DecisionCycle.Number
import Mathlib.Data.Rat.Cast.Order
import Mathlib.Tactic

/-!
The value of a number as a rational. Numbers are compared with integers, and cut to
integers, by the quotient that a number is kept as; here this is put in terms of its value.
-/

namespace DecisionCycle.Number

def value? : Number → Option ℚ
  | .finite negative mantissa exponent =>
      some ((if negative then -1 else 1) * mantissa * 2 ^ exponent)
  | _ => none

variable {x : Number} {n : Int}

theorem fraction_eq (mantissa : Nat) (exponent : Int) :
    0 < (fraction mantissa exponent).2 ∧
      ((fraction mantissa exponent).1 : ℚ) / (fraction mantissa exponent).2 =
        mantissa * 2 ^ exponent := by
  cases exponent with
  | ofNat k => simp [fraction]
  | negSucc k =>
      have hpositive : 0 < Nat.pow 2 (k + 1) := Nat.pow_pos (by decide)
      refine ⟨hpositive, ?_⟩
      simp [fraction, zpow_negSucc, div_eq_mul_inv]

theorem ratio?_finite (negative : Bool) (mantissa : Nat) (exponent : Int) :
    (finite negative mantissa exponent).ratio? =
      some (if negative then -((fraction mantissa exponent).1 : Int)
        else (fraction mantissa exponent).1, (fraction mantissa exponent).2) := rfl

theorem value?_of_ratio? {top : Int} {bottom : Nat} (h : x.ratio? = some (top, bottom)) :
    0 < bottom ∧ x.value? = some ((top : ℚ) / bottom) := by
  cases x with
  | nan => cases h
  | infinite negative => cases h
  | finite negative mantissa exponent =>
      obtain ⟨hpositive, hvalue⟩ := fraction_eq mantissa exponent
      rw [ratio?_finite, Option.some.injEq, Prod.mk.injEq] at h
      obtain ⟨rfl, rfl⟩ := h
      refine ⟨hpositive, congrArg some ?_⟩
      rw [mul_assoc, ← hvalue]
      cases negative <;> simp [neg_div]

theorem value?_of_ratio?_eq_none (h : x.ratio? = none) : x.value? = none := by
  cases x with
  | finite negative mantissa exponent => cases h
  | _ => rfl

theorem ratio?_ofInt (n : Int) : (ofInt n).ratio? = some (n, 1) := by
  have hsigned : (if n < 0 then -(n.natAbs : Int) else n.natAbs) = n := by
    split <;> omega
  simpa [ofInt, ratio?, fraction] using hsigned

theorem div_eq_intCast_iff {top n : Int} {bottom : Nat} (h : 0 < bottom) :
    (top : ℚ) / bottom = n ↔ top = n * bottom := by
  rw [div_eq_iff (by positivity)]
  norm_cast

theorem value?_ofInt (n : Int) : (ofInt n).value? = some (n : ℚ) := by
  simpa using (value?_of_ratio? (ratio?_ofInt n)).2

theorem eq_ofInt_iff : x.eq (ofInt n) = true ↔ x.value? = some (n : ℚ) := by
  rw [eq.eq_2 _ _ (by simp [ofInt]), ratio?_ofInt]
  cases hratio : x.ratio? with
  | none => simp [value?_of_ratio?_eq_none hratio]
  | some quotient =>
      obtain ⟨hpositive, hvalue⟩ := value?_of_ratio? hratio
      rw [hvalue, Option.some.injEq, div_eq_intCast_iff hpositive]
      simp

/-- Cutting off the fraction of a number goes down if the number is positive, and up if it is
negative. -/
theorem truncate?_eq {q : ℚ} (h : x.value? = some q) :
    x.truncate? = some (if 0 ≤ q then ⌊q⌋ else ⌈q⌉) := by
  cases hratio : x.ratio? with
  | none => cases (value?_of_ratio?_eq_none hratio).symm.trans h
  | some quotient =>
      obtain ⟨top, bottom⟩ := quotient
      obtain ⟨hpositive, hvalue⟩ := value?_of_ratio? hratio
      rw [hvalue, Option.some.injEq] at h
      subst h
      have hbottom : (0 : ℚ) < bottom := Nat.cast_pos.mpr hpositive
      rw [truncate?, hratio, Option.map_some, Option.some.injEq]
      show top.tdiv bottom = _
      split
      case isTrue hq =>
        have htop : 0 ≤ top := by
          rwa [le_div_iff₀ hbottom, zero_mul, Int.cast_nonneg_iff] at hq
        rw [Rat.floor_intCast_div_natCast, Int.tdiv_eq_ediv_of_nonneg htop]
      case isFalse hq =>
        have htop : 0 ≤ -top := by
          rw [not_le, div_lt_iff₀ hbottom, zero_mul, Int.cast_lt_zero] at hq
          omega
        have hneg : ⌈(top : ℚ) / bottom⌉ = -⌊((-top : ℤ) : ℚ) / bottom⌋ := by
          rw [Int.cast_neg, neg_div, Int.floor_neg, neg_neg]
        rw [hneg, Rat.floor_intCast_div_natCast, ← Int.tdiv_eq_ediv_of_nonneg htop, Int.neg_tdiv,
          neg_neg]

theorem truncate?_of_value? (h : x.value? = some (n : ℚ)) : x.truncate? = some n := by
  rw [truncate?_eq h, Int.floor_intCast, Int.ceil_intCast, ite_self]

theorem le_iff_of_value? {y : Number} {p q : ℚ} (hx : x.value? = some p)
    (hy : y.value? = some q) : x.le y = true ↔ p ≤ q := by
  cases x with
  | finite sx mx ex =>
      cases y with
      | finite sy my ey =>
          have hratio := ratio?_finite sx mx ex
          have hratio' := ratio?_finite sy my ey
          obtain ⟨hb, hvalue⟩ := value?_of_ratio? hratio
          obtain ⟨hd, hvalue'⟩ := value?_of_ratio? hratio'
          rw [hx, Option.some.injEq] at hvalue
          rw [hy, Option.some.injEq] at hvalue'
          simp only [le, hratio, hratio', decide_eq_true_iff]
          rw [hvalue, hvalue', div_le_div_iff₀ (Nat.cast_pos.mpr hb) (Nat.cast_pos.mpr hd)]
          norm_cast
      | _ => cases hy
  | _ => cases hx

end DecisionCycle.Number
