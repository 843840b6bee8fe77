/-!
Texts. A text is a row of code points. Most of these are characters; but an
escape in a document can write half of a surrogate pair, and such a half may
then stand on its own. It is no character, and two halves side by side are not
the character that they would stand for together.
-/

namespace DecisionCycle

inductive CodePoint where
  | char (c : Char)
  /-- Half of a surrogate pair, counted from the first one. -/
  | half (n : Fin 2048)
  deriving DecidableEq, Inhabited

namespace CodePoint

def toNat : CodePoint → Nat
  | char c => c.toNat
  | half n => 0xD800 + n.val

def ofNat? (n : Nat) : Option CodePoint :=
  if n < 0xD800 then some (.char (Char.ofNat n))
  else if n < 0xE000 then some (.half (Fin.ofNat 2048 (n - 0xD800)))
  else if n < 0x110000 then some (.char (Char.ofNat n))
  else none

def char? : CodePoint → Option Char
  | char c => some c
  | half _ => none

end CodePoint

structure Text where
  points : List CodePoint
  deriving DecidableEq, Inhabited

namespace Text

def ofChars (s : List Char) : Text :=
  ⟨s.map .char⟩

def ofString (s : String) : Text :=
  ofChars s.toList

instance : Coe String Text := ⟨ofString⟩

instance : Append Text := ⟨fun s t => ⟨s.points ++ t.points⟩⟩

def isEmpty (t : Text) : Bool :=
  t.points.isEmpty

def chars? (t : Text) : Option (List Char) :=
  t.points.mapM CodePoint.char?

@[simp] theorem chars?_ofChars (s : List Char) : (ofChars s).chars? = some s := by
  induction s with
  | nil => rfl
  | cons c s ih =>
      simp only [chars?, ofChars, List.map_cons, List.mapM_cons] at ih ⊢
      rw [ih]
      rfl

@[simp] theorem chars?_ofString (s : String) : (ofString s).chars? = some s.toList :=
  chars?_ofChars s.toList

@[simp] theorem isEmpty_ofString (s : String) : (ofString s).isEmpty = s.toList.isEmpty := by
  simp [isEmpty, ofString, ofChars]

@[simp] theorem ofString_inj {s t : String} : ofString s = ofString t ↔ s = t := by
  constructor
  · intro h
    have hchars := congrArg chars? h
    simp only [chars?_ofString, Option.some.injEq] at hchars
    exact String.toList_inj.mp hchars
  · rintro rfl
    rfl

theorem chars?_eq_some_iff {t : Text} {s : List Char} : t.chars? = some s ↔ t = ofChars s := by
  refine ⟨fun h => ?_, fun h => h ▸ chars?_ofChars s⟩
  obtain ⟨points⟩ := t
  simp only [chars?, ofChars, mk.injEq] at h ⊢
  induction points generalizing s with
  | nil => simpa [eq_comm] using h
  | cons point points ih =>
      simp only [List.mapM_cons, Option.bind_eq_bind, Option.bind_eq_some_iff] at h
      obtain ⟨c, hc, rest, hrest, h⟩ := h
      cases h
      cases point with
      | half n => cases hc
      | char d =>
          cases hc
          rw [ih hrest]
          rfl

theorem ofChars_inj {s t : List Char} : ofChars s = ofChars t ↔ s = t := by
  rw [← chars?_eq_some_iff, chars?_ofChars, Option.some.injEq]

/-- A text as a string, in which a replacement character stands for each half. -/
def shown (t : Text) : String :=
  String.ofList (t.points.map fun p => p.char?.getD '\ufffd')

def join (separator : Text) (parts : List Text) : Text :=
  ⟨separator.points.intercalate (parts.map points)⟩

end Text

end DecisionCycle
