import DecisionCycle.Proofs.Number.Value
import DecisionCycle.Proofs.Payload
import DecisionCycle.Proofs.Quality.RoundTrip

/-!
Numbers as scores. A number loses its fraction, which goes toward zero, and then is clamped
into the range of scores. Where the way of cutting matters, below zero, the range has ended
already, so it is as if the greatest integer that is not above the number were clamped, and
a greater number never gives a lesser score. The two infinities have no integer part. They
are not clamped but break off, alone and in an element.
-/

namespace DecisionCycle

namespace Value

variable {v : Value} {x : Number}

theorem toInt_of_value? {q : ℚ} (hx : v.number? = some x) (hq : x.value? = some q) :
    v.toInt = .ok (if 0 ≤ q then ⌊q⌋ else ⌈q⌉) := by
  have hwhole {n : ℤ} (hn : Number.ofInt n = x) : n = if 0 ≤ q then ⌊q⌋ else ⌈q⌉ := by
    rw [← hn, Number.value?_ofInt, Option.some.injEq] at hq
    rw [← hq, Int.floor_intCast, Int.ceil_intCast, ite_self]
  cases v with
  | bool b => exact congrArg Except.ok (hwhole (Option.some.inj hx))
  | int n => exact congrArg Except.ok (hwhole (Option.some.inj hx))
  | float y =>
      obtain rfl : y = x := Option.some.inj hx
      cases y with
      | finite negative mantissa exponent => rw [toInt, Number.truncate?_eq hq]; simp
      | _ => cases hq
  | _ => cases hx

theorem eq_float_of_infinite {negative : Bool} (h : v.number? = some (.infinite negative)) :
    v = .float (.infinite negative) := by
  cases v with
  | float y => rw [Option.some.inj h]
  | _ => cases h

end Value

namespace Score

variable {v w : Value} {x y : Number} {q : ℚ} {s t : Score}

theorem val_clamp (n : Int) : ((clamp n).val : ℤ) = max 0 (min 100 n) := by
  simp only [clamp]
  omega

theorem clamp_mono {m n : Int} (h : m ≤ n) : clamp m ≤ clamp n := by
  have hm := val_clamp m
  have hn := val_clamp n
  show (clamp m).val ≤ (clamp n).val
  omega

theorem clamp_truncated (q : ℚ) : clamp (if 0 ≤ q then ⌊q⌋ else ⌈q⌉) = clamp ⌊q⌋ := by
  split
  case isTrue => rfl
  case isFalse hq =>
    have hfloor : ⌊q⌋ < 0 := Int.floor_lt.mpr (by simpa using hq)
    have hceil : ⌈q⌉ ≤ 0 := Int.ceil_le.mpr (by simpa using (not_le.mp hq).le)
    have hdown := val_clamp ⌊q⌋
    have hup := val_clamp ⌈q⌉
    ext
    omega

theorem ofPayload_of_value? (hx : v.number? = some x) (hq : x.value? = some q) :
    ofPayload v = .ok (clamp ⌊q⌋) := by
  rw [ofPayload, Value.toInt_of_value? hx hq, ← clamp_truncated]
  rfl

theorem ofPayload_of_infinite {negative : Bool} (hx : v.number? = some (.infinite negative)) :
    ofPayload v = .error .infinite := by
  rw [Value.eq_float_of_infinite hx]
  rfl

theorem exists_value?_of_ofPayload (hx : v.number? = some x) (hnan : x ≠ .nan)
    (hs : ofPayload v = .ok s) : ∃ q, x.value? = some q ∧ s = clamp ⌊q⌋ := by
  cases x with
  | nan => exact absurd rfl hnan
  | infinite negative =>
      rw [ofPayload_of_infinite hx] at hs
      cases hs
  | finite negative mantissa exponent =>
      have hread := ofPayload_of_value? hx rfl
      rw [hs, Except.ok.injEq] at hread
      exact ⟨_, rfl, hread⟩

theorem exists_ofPayload_iff (hx : v.number? = some x) (hnan : x ≠ .nan) :
    (∃ s, ofPayload v = .ok s) ↔ ∀ negative, x ≠ .infinite negative := by
  constructor
  · rintro ⟨s, hs⟩ negative rfl
    obtain ⟨q, hq, -⟩ := exists_value?_of_ofPayload hx hnan hs
    cases hq
  · intro hfinite
    cases x with
    | nan => exact absurd rfl hnan
    | infinite negative => exact absurd rfl (hfinite negative)
    | finite negative mantissa exponent => exact ⟨_, ofPayload_of_value? hx rfl⟩

theorem le_of_number_le (hx : v.number? = some x) (hy : w.number? = some y) (hle : x.le y = true)
    (hs : ofPayload v = .ok s) (ht : ofPayload w = .ok t) : s ≤ t := by
  -- what is not a number is in no order
  have hnan : x ≠ .nan := by
    rintro rfl
    cases hle
  have hnan' : y ≠ .nan := by
    rintro rfl
    cases x <;> cases hle
  obtain ⟨p, hp, rfl⟩ := exists_value?_of_ofPayload hx hnan hs
  obtain ⟨q, hq, rfl⟩ := exists_value?_of_ofPayload hy hnan' ht
  have hpq : p ≤ q := (Number.le_iff_of_value? hp hq).mp hle
  exact clamp_mono (Int.floor_mono hpq)

end Score

/-! ### The score of an element -/

namespace Element

def IsNamed (entries : List (Value × Value)) : Prop :=
  ∃ name, Value.lookup? "name" entries = some name ∧ name.isWritable = true

def HasOwnFields (entries : List (Value × Value)) : Prop :=
  ∀ entry ∈ entries, ∃ field ∈ fieldNames, entry.1 = .str field

variable {entries : List (Value × Value)} {v : Value}

theorem map_score_ofPayload (hname : IsNamed entries)
    (hscore : Value.lookup? "score" entries = some v) :
    (ofPayload (.dict entries)).map score = Score.ofPayload v := by
  obtain ⟨name, hname, hwritable⟩ := hname
  simp only [ofPayload, Value.require, Value.field, Value.fieldOr, hname, hscore, ok_bind,
    Value.written, if_pos hwritable, Option.getD_some]
  cases Score.ofPayload v <;> rfl

theorem map_score_ofFields {name : Value} (hname : Value.lookup? "name" entries = some name)
    (hown : HasOwnFields entries) (hscore : Value.lookup? "score" entries = some v) :
    (ofFields (.dict entries)).map Made.score = Score.ofPayload v := by
  have hfields : (entries.all fun e => fieldNames.any fun name => e.1.sameKey (.str name)) =
      true := by
    simp only [List.all_eq_true, List.any_eq_true, Value.sameKey_str_iff]
    exact hown
  rw [ofFields, if_pos hfields]
  simp only [hname, hscore, Value.field, Value.fieldOr, ok_bind]
  cases Score.ofPayload v <;> rfl

end Element

namespace Score

/-- What comes of a value as a score: of the value alone, of an element that is read with it,
and of an element that is made with it. -/
structure ComesTo (v : Value) (result : Except PayloadFault Score) : Prop where
  alone : ofPayload v = result
  read {entries : List (Value × Value)} : Element.IsNamed entries →
    Value.lookup? "score" entries = some v →
      (Element.ofPayload (.dict entries)).map Element.score = result
  made {entries : List (Value × Value)} {name : Value} :
    Value.lookup? "name" entries = some name → Element.HasOwnFields entries →
      Value.lookup? "score" entries = some v →
        (Element.ofFields (.dict entries)).map Element.Made.score = result

variable {v : Value} {x : Number}

theorem comesTo_iff {result : Except PayloadFault Score} :
    ComesTo v result ↔ ofPayload v = result := by
  constructor
  · exact ComesTo.alone
  · rintro rfl
    exact ⟨rfl, Element.map_score_ofPayload, Element.map_score_ofFields⟩

/-- What comes of a number as a score. -/
structure ClampsByValue (v : Value) (x : Number) : Prop where
  scored_iff : (∃ s, ComesTo v (.ok s)) ↔ ∀ negative, x ≠ .infinite negative
  clamped {q : ℚ} : x.value? = some q →
    ∃ s : Score, ComesTo v (.ok s) ∧ (s.val : ℤ) = max 0 (min 100 ⌊q⌋)
  unchanged {s : Score} : v = .int s.val → ComesTo v (.ok s)
  monotone {w : Value} {y : Number} {s t : Score} : w.number? = some y → x.le y = true →
    ComesTo v (.ok s) → ComesTo w (.ok t) → s ≤ t
  breaksOff {negative : Bool} : x = .infinite negative → ComesTo v (.error .infinite)

/-- **Scores by value.** A number of any size gives the score next to it, its fraction left
out, whether it is written with a point or not; a greater number gives no lesser score, and
a score gives itself. Only an infinity gives none: reading it breaks off. -/
theorem ofPayload_clampsByValue (hx : v.number? = some x) (hnan : x ≠ .nan) :
    ClampsByValue v x where
  scored_iff := by
    simp only [comesTo_iff]
    exact exists_ofPayload_iff hx hnan
  clamped hq := ⟨_, comesTo_iff.mpr (ofPayload_of_value? hx hq), val_clamp _⟩
  unchanged := by
    rintro s rfl
    exact comesTo_iff.mpr (ofPayload_int_val s)
  monotone hy hle hs ht := le_of_number_le hx hy hle hs.alone ht.alone
  breaksOff := by
    rintro negative rfl
    exact comesTo_iff.mpr (ofPayload_of_infinite hx)

/-- Ninety-nine and a half, alone and in an element. -/
theorem ofPayload_clampsByValue_half :
    let x : Number := .finite false 199 (-1)
    let entries : List (Value × Value) :=
      [(.str "score", .float x), (.str "name", .str "Clear Tradeoffs")]
    (Value.float x).number? = some x ∧ x ≠ .nan ∧ ClampsByValue (.float x) x ∧
      ofPayload (.float x) = .ok 99 ∧ Element.IsNamed entries ∧ Element.HasOwnFields entries ∧
      (Element.ofFields (.dict entries)).map Element.Made.score = .ok 99 := by
  intro x entries
  have hfields : Element.HasOwnFields entries := by
    simp [Element.HasOwnFields, entries, Element.fieldNames]
  exact ⟨rfl, by decide, ofPayload_clampsByValue rfl (by decide), rfl, ⟨_, rfl, rfl⟩, hfields, rfl⟩

/-- An infinity is above all integers, and yet it does not give the greatest score, alone or
in an element. -/
theorem ofPayload_infinity :
    let x : Number := .infinite false
    let entries : List (Value × Value) :=
      [(.str "name", .str "Clear Tradeoffs"), (.str "score", .float x)]
    x ≠ .nan ∧ (∀ n : Int, (Number.ofInt n).le x = true) ∧ ofPayload (.int 100) = .ok 100 ∧
      ofPayload (.float x) = .error .infinite ∧
      (Element.ofPayload (.dict entries)).map Element.score = .error .infinite ∧
      (Element.ofFields (.dict entries)).map Element.Made.score = .error .infinite :=
  ⟨by decide, fun _ => rfl, rfl, rfl, rfl, rfl⟩

end Score

end DecisionCycle
