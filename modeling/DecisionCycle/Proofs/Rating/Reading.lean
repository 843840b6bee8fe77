import DecisionCycle.Proofs.Number.Value
import DecisionCycle.Proofs.Rating
import DecisionCycle.Proofs.Text.Numeral

/-!
Which values are read as which rating: those that stand for its number. An integer stands
for itself, a finite number for the integer that is its value, and a text for the integer
that it writes. The way of reading is another one. It cuts a value to an integer, and then
asks whether something was cut off; this comes to the same, also where a text is read, of
which nothing is cut off.
-/

namespace DecisionCycle

open Text

/-- A value stands for an integer: it is the integer, or a finite number with its value, or
a text that writes it, with nothing but white space around. -/
inductive Value.StandsFor : Value → Int → Prop
  | int (n) : StandsFor (.int n) n
  | float {x} {n : Int} : x.value? = some (n : ℚ) → StandsFor (.float x) n
  | text {core s n} : IsPadded isWhiteSpace core s → WritesInteger core n →
      StandsFor (.str (ofChars s)) n

variable {v : Value} {n : Int}

namespace Value

theorem standsFor_int_iff {m : Int} : (Value.int m).StandsFor n ↔ m = n := by
  constructor
  · rintro ⟨⟩
    rfl
  · rintro rfl
    exact .int m

theorem standsFor_float_iff {x : Number} :
    (Value.float x).StandsFor n ↔ x.value? = some (n : ℚ) := by
  constructor
  · rintro (_ | h | _)
    exact h
  · exact .float

theorem standsFor_str_iff {t : Text} :
    (Value.str t).StandsFor n ↔ t.chars?.bind integer? = some n := by
  simp only [Option.bind_eq_some_iff, chars?_eq_some_iff, integer?_eq_some_iff]
  constructor
  · rintro (_ | _ | ⟨hpadded, hwrites⟩)
    exact ⟨_, rfl, _, hpadded, hwrites⟩
  · rintro ⟨s, rfl, core, hpadded, hwrites⟩
    exact .text hpadded hwrites

end Value

namespace Rating

theorem isExact_int_iff {m : Int} : isExact (.int m) n = true ↔ m = n := by
  have hexact : isExact (.int m) n = (Number.ofInt m).eq (Number.ofInt n) := rfl
  rw [hexact, Number.eq_ofInt_iff, Number.value?_ofInt]
  simp

theorem isExact_float_iff {x : Number} :
    isExact (.float x) n = true ↔ x.value? = some (n : ℚ) := by
  rw [← Number.eq_ofInt_iff]
  rfl

theorem standsFor_iff (hbool : ∀ b, v ≠ .bool b) :
    v.StandsFor n ↔ v.toInt = .ok n ∧ isExact v n = true := by
  cases v with
  | bool b => exact absurd rfl (hbool b)
  | int m =>
      rw [Value.standsFor_int_iff, isExact_int_iff]
      simp [Value.toInt]
  | float x =>
      rw [Value.standsFor_float_iff, isExact_float_iff, iff_and_self]
      intro hvalue
      have hcut := Number.truncate?_of_value? hvalue
      -- only finite numbers have a value
      cases x with
      | finite negative mantissa exponent => rw [Value.toInt, hcut]; simp
      | _ => cases hvalue
  | str t =>
      rw [Value.standsFor_str_iff, Value.toInt]
      cases t.chars?.bind integer? <;> simp [isExact, Value.number?]
  | _ =>
      constructor
      · intro h
        cases h
      · rintro ⟨⟨⟩, _⟩

/-- What comes of values as ratings: a value is read as the rating whose number it stands
for; whatever stands for no such number is refused, as a value that is no rating unless it
is an infinity or too long to be shown; and a rating is read from its own number. -/
structure ReadsNumbers (v : Value) : Prop where
  reads (n : Int) :
    (∃ r, ofPayload v = .ok r ∧ r.value = n) ↔ (-2 ≤ n ∧ n ≤ 2) ∧ v.StandsFor n
  refused : (∀ n, -2 ≤ n → n ≤ 2 → ¬v.StandsFor n) →
    ∃ fault, ofPayload v = .error fault ∧
      ((∀ negative, v ≠ .float (.infinite negative)) → v.isWritable = true →
        fault = .ratingOutOfRange v)
  again {r : Rating} : ofPayload v = .ok r → ofPayload (.int r.value) = .ok r

theorem ofPayload_eq_ok_iff_standsFor {r : Rating} :
    ofPayload v = .ok r ↔ v.StandsFor r.value := by
  by_cases hbool : ∀ b, v ≠ .bool b
  · rw [ofPayload_eq_ok_iff, standsFor_iff hbool]
    simp [hbool]
  · obtain ⟨b, hb⟩ := not_forall.mp hbool
    obtain rfl := not_not.mp hb
    constructor
    · intro h
      cases h
    · intro h
      cases h

theorem exists_value_eq_iff : (∃ r, value r = n) ↔ -2 ≤ n ∧ n ≤ 2 := by
  constructor
  · rintro ⟨r, rfl⟩
    exact r.value_bounds
  · rintro ⟨hlow, hhigh⟩
    interval_cases n
    exacts [⟨.muchWorse, rfl⟩, ⟨.worse, rfl⟩, ⟨.same, rfl⟩, ⟨.better, rfl⟩, ⟨.muchBetter, rfl⟩]

/-- **Ratings by number.** A value is read as a rating exactly if it stands for a number
from -2 to 2, and then as the rating with that number. -/
theorem ofPayload_readsNumbers (v : Value) : ReadsNumbers v where
  reads n := by
    simp only [ofPayload_eq_ok_iff_standsFor, ← exists_value_eq_iff]
    constructor
    · rintro ⟨r, hstands, rfl⟩
      exact ⟨⟨r, rfl⟩, hstands⟩
    · rintro ⟨⟨r, rfl⟩, hstands⟩
      exact ⟨r, hstands, rfl⟩
  refused hnone := by
    rcases ofPayload_cases v with ⟨r, hr⟩ | ⟨negative, rfl⟩ | hrefused
    · exact absurd (ofPayload_eq_ok_iff_standsFor.mp hr)
        (hnone _ r.value_bounds.1 r.value_bounds.2)
    · exact ⟨.infinite, ofPayload_infinite negative, fun hfinite => absurd rfl (hfinite negative)⟩
    · exact ⟨refusal v, hrefused, fun _ hwritable => if_pos hwritable⟩
  again _ := ofPayload_eq_ok_iff_standsFor.mpr (.int _)

/-- Digits of two scripts, with an underscore between them, after an ideographic space. -/
example : (ofPayload (.str "\u3000+\u0660_2 ")).toOption = some .muchBetter := by
  decide +kernel

/-- An information separator is a blank, but no white space. -/
example : (ofPayload (.str "\x1c2")).toOption = none := by
  decide +kernel

end Rating

end DecisionCycle
