import DecisionCycle.Rating
import Mathlib.Tactic

/-!
What is read as a rating, and what comes of the rest. Every value that is no rating is
refused as one, but for the two infinities, which have no integer part to begin with; and
a refusal shows the value, which a value that is too long does not allow. What is read as
a rating is never too long.
-/

namespace DecisionCycle

theorem Value.toInt_eq_infinite {v : Value} (h : v.toInt = .error .infinite) :
    ∃ negative, v = .float (.infinite negative) := by
  cases v with
  | float x =>
      cases x with
      | infinite negative => exact ⟨negative, rfl⟩
      | _ => cases h
  | str s =>
      rw [toInt] at h
      split at h <;> cases h
  | _ => cases h

namespace Rating

variable {v : Value} {r : Rating}

theorem ofPayload_infinite (negative : Bool) :
    ofPayload (.float (.infinite negative)) = .error .infinite := rfl

theorem ofPayload_cases (v : Value) :
    (∃ r, ofPayload v = .ok r) ∨ (∃ negative, v = .float (.infinite negative)) ∨
      ofPayload v = .error (refusal v) := by
  unfold ofPayload
  split
  · exact .inr (.inr rfl)
  · split
    case h_1 hv => exact .inr (.inl (Value.toInt_eq_infinite hv))
    case h_2 => exact .inr (.inr rfl)
    case h_3 n _ =>
      by_cases hexact : isExact v n = true
      · rw [if_pos hexact]
        cases ofInt? n with
        | some r => exact .inl ⟨r, rfl⟩
        | none => exact .inr (.inr rfl)
      · rw [if_neg hexact]
        exact .inr (.inr rfl)

theorem value_of_ofInt? {n : Int} (h : ofInt? n = some r) : r.value = n := by
  simpa using List.find?_some h

theorem ofInt?_value (r : Rating) : ofInt? r.value = some r := by
  cases r <;> decide

/-- A value is read as a rating if its integer is the one of the rating and nothing is cut
off it, truth values apart. -/
theorem ofPayload_eq_ok_iff :
    ofPayload v = .ok r ↔
      (∀ b, v ≠ .bool b) ∧ v.toInt = .ok r.value ∧ isExact v r.value = true := by
  constructor
  · intro h
    unfold ofPayload at h
    split at h
    case h_1 => cases h
    case h_2 hbool =>
      refine ⟨fun b hv => hbool b hv, ?_⟩
      split at h
      case h_1 => cases h
      case h_2 => cases h
      case h_3 n hn =>
        split at h
        case isFalse => cases h
        case isTrue hexact =>
          split at h
          case h_2 => cases h
          case h_1 r' hr' =>
            cases h
            rw [value_of_ofInt? hr']
            exact ⟨hn, hexact⟩
  · rintro ⟨hbool, hint, hexact⟩
    unfold ofPayload
    split
    · exact absurd rfl (hbool _)
    · simp [hint, hexact, ofInt?_value]

theorem toInt_of_ofPayload (h : ofPayload v = .ok r) : v.toInt = .ok r.value :=
  (ofPayload_eq_ok_iff.mp h).2.1

theorem isWritable_of_ofPayload (h : ofPayload v = .ok r) : v.isWritable = true := by
  have hint := toInt_of_ofPayload h
  cases v with
  | int n =>
      -- an integer is read as itself, so this one has a single digit
      have hn : n = r.value := Except.ok.inj hint
      have hbounds := r.value_bounds
      have hsmall : n.natAbs < 10 := by
        simp only [least, greatest] at hbounds
        omega
      have hlimit (k : Nat) (hk : k ≠ 0) : 10 ≤ Nat.pow 10 k := Nat.le_self_pow hk 10
      rw [Value.isWritable, Value.isWritableInt]
      exact decide_eq_true (hsmall.trans_le (hlimit Text.digitLimit (by decide)))
  | list items => cases hint
  | dict entries => cases hint
  | _ => simp [Value.isWritable]

end Rating

end DecisionCycle
