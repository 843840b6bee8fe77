import DecisionCycle.Proofs.Text.Trim
import Mathlib.Data.Nat.Digits.Defs
import Mathlib.Tactic

/-!
The texts that write an integer, as a grammar, and that it is these which are read. The
digits may be of several scripts, but they are never white space, signs or underscores;
hence no text is read in two ways.
-/

namespace DecisionCycle.Text

/-- The code points with the Unicode property of white space. -/
def whiteSpace : List Nat :=
  [0x09, 0x0A, 0x0B, 0x0C, 0x0D, 0x20, 0x85, 0xA0, 0x1680, 0x2000, 0x2001, 0x2002, 0x2003,
    0x2004, 0x2005, 0x2006, 0x2007, 0x2008, 0x2009, 0x200A, 0x2028, 0x2029, 0x202F, 0x205F,
    0x3000]

def isWhiteSpace (c : Char) : Bool :=
  c.toNat ∈ whiteSpace

/-- Some characters write digits: a decimal digit of any script for each, and at most one
underscore between two of them. -/
inductive WritesDigits : List Char → List Nat → Prop
  | last {c d} : digit? c = some d → WritesDigits [c] [d]
  | next {c d s ds} : digit? c = some d → WritesDigits s ds → WritesDigits (c :: s) (d :: ds)
  | underscore {c d s ds} : digit? c = some d → WritesDigits s ds →
      WritesDigits (c :: '_' :: s) (d :: ds)

/-- Some characters write a natural number: its digits, the most significant first, leading
zeros allowed, but no more digits than are read. -/
def WritesNatural (s : List Char) (n : Nat) : Prop :=
  ∃ ds, WritesDigits s ds ∧ ds.length ≤ digitLimit ∧ Nat.ofDigits 10 ds.reverse = n

inductive WritesInteger : List Char → Int → Prop
  | unsigned {s n} : WritesNatural s n → WritesInteger s n
  | plus {s n} : WritesNatural s n → WritesInteger ('+' :: s) n
  | minus {s n} : WritesNatural s n → WritesInteger ('-' :: s) (-n)

variable {c : Char} {s core : List Char} {ds : List Nat}

/-! ### Digits and what may stand around them -/

/-- The margins of a number are the white space of Unicode, which has fewer characters than
there are blanks. -/
theorem isMargin_iff : isMargin c = true ↔ c.toNat ∈ whiteSpace := by
  simp [isMargin, isBlank, whiteSpace]
  omega

theorem isMargin_eq_isWhiteSpace : isMargin = isWhiteSpace := by
  funext c
  rw [Bool.eq_iff_iff, isMargin_iff, isWhiteSpace, decide_eq_true_iff]

theorem isMargin_of_digit? {d : Nat} (h : digit? c = some d) : isMargin c = false := by
  have hnone : ∀ n ∈ whiteSpace, (zeroDigits.find? fun z => z ≤ n && n < z + 10) = none := by
    decide
  by_contra hmargin
  have hspace : c.toNat ∈ whiteSpace := isMargin_iff.mp (eq_true_of_ne_false hmargin)
  rw [digit?, hnone _ hspace] at h
  cases h

theorem digit?_sign : digit? '+' = none ∧ digit? '-' = none := by
  decide

theorem digit?_underscore : digit? '_' = none := by
  decide

/-! ### Digits are read as they are written -/

theorem digits?_cons :
    digits? (c :: s) = some ds ↔
      ∃ d, digit? c = some d ∧ ∃ ds', moreDigits? s = some ds' ∧ d :: ds' = ds := by
  simp [digits?, Option.bind_eq_some_iff]

theorem moreDigits?_cons (hc : c ≠ '_') : moreDigits? (c :: s) = digits? (c :: s) := by
  rw [moreDigits?, digits?]
  rintro d rest ⟨⟩
  exact absurd rfl hc

theorem moreDigits?_underscore : moreDigits? ('_' :: s) = digits? s := by
  cases s with
  | nil => simp [moreDigits?, digits?, digit?_underscore]
  | cons c s => rfl

theorem digits?_underscore : digits? ('_' :: s) = none := by
  simp [digits?, digit?_underscore]

theorem moreDigits?_eq_some_iff :
    moreDigits? s = some ds ↔
      (s = [] ∧ ds = []) ∨ digits? s = some ds ∨
        ∃ rest, s = '_' :: rest ∧ digits? rest = some ds := by
  cases s with
  | nil => simp [moreDigits?, digits?, eq_comm]
  | cons c s =>
      by_cases hc : c = '_'
      · subst hc
        simp [moreDigits?_underscore, digits?_underscore]
      · simp [moreDigits?_cons hc, hc]

theorem digits?_eq_some_iff : digits? s = some ds ↔ WritesDigits s ds := by
  constructor
  · intro h
    -- on the digits and not the characters: a digit may take an underscore with it
    induction ds generalizing s with
    | nil =>
        cases s with
        | nil => cases h
        | cons c s => simp [digits?_cons] at h
    | cons d ds ih =>
        cases s with
        | nil => cases h
        | cons c s =>
            obtain ⟨d', hd, ds', hmore, hds⟩ := digits?_cons.mp h
            obtain ⟨rfl, rfl⟩ := List.cons.inj hds
            rcases moreDigits?_eq_some_iff.mp hmore with ⟨rfl, rfl⟩ | hnext | ⟨rest, rfl, hnext⟩
            · exact .last hd
            · exact .next hd (ih hnext)
            · exact .underscore hd (ih hnext)
  · intro h
    induction h with
    | last hd => exact digits?_cons.mpr ⟨_, hd, _, rfl, rfl⟩
    | next hd _ ih =>
        exact digits?_cons.mpr ⟨_, hd, _, moreDigits?_eq_some_iff.mpr (.inr (.inl ih)), rfl⟩
    | underscore hd _ ih =>
        exact digits?_cons.mpr
          ⟨_, hd, _, moreDigits?_eq_some_iff.mpr (.inr (.inr ⟨_, rfl, ih⟩)), rfl⟩

theorem ofDigits_eq (ds : List Nat) : ofDigits ds = Nat.ofDigits 10 ds.reverse := by
  rw [Nat.ofDigits_eq_foldr, List.foldr_reverse, ofDigits]
  congr
  funext n d
  simp [add_comm]

theorem numeral?_eq_some_iff {n : Nat} : numeral? s = some n ↔ WritesNatural s n := by
  simp only [numeral?, Option.map_eq_some_iff, Option.filter_eq_some_iff, digits?_eq_some_iff,
    decide_eq_true_eq, WritesNatural, ofDigits_eq, and_assoc]

/-! ### Integers -/

theorem WritesNatural.exists_digit {n : Nat} (h : WritesNatural s n) :
    ∃ c rest d, s = c :: rest ∧ digit? c = some d := by
  obtain ⟨ds, hwrites, -⟩ := h
  cases hwrites with
  | last hd => exact ⟨_, _, _, rfl, hd⟩
  | next hd _ => exact ⟨_, _, _, rfl, hd⟩
  | underscore hd _ => exact ⟨_, _, _, rfl, hd⟩

theorem WritesDigits.digit?_of_getLast? (h : WritesDigits s ds) (hc : s.getLast? = some c) :
    ∃ d, digit? c = some d := by
  induction h with
  | last hd =>
      cases hc
      exact ⟨_, hd⟩
  | next _ hrest ih =>
      refine ih ?_
      cases hrest <;> simpa [List.getLast?_cons_cons] using hc
  | underscore _ hrest ih =>
      refine ih ?_
      cases hrest <;> simpa [List.getLast?_cons_cons] using hc

theorem WritesNatural.isMargin_of_getLast? {n : Nat} (h : WritesNatural s n)
    (hc : s.getLast? = some c) : isMargin c = false := by
  obtain ⟨ds, hwrites, -⟩ := h
  obtain ⟨d, hd⟩ := hwrites.digit?_of_getLast? hc
  exact isMargin_of_digit? hd

theorem isBare_of_writesInteger {n : Int} (h : WritesInteger core n) : IsBare isMargin core := by
  have hsigned {sign : Char} {s : List Char} {n : Nat} (hsign : isMargin sign = false)
      (hs : WritesNatural s n) : IsBare isMargin (sign :: s) := by
    refine ⟨fun c hc => ?_, fun c hc => ?_⟩
    · cases hc
      exact hsign
    · obtain ⟨_, _, _, rfl, -⟩ := hs.exists_digit
      exact hs.isMargin_of_getLast? (by simpa [List.getLast?_cons_cons] using hc)
  cases h with
  | plus hs => exact hsigned (by decide) hs
  | minus hs => exact hsigned (by decide) hs
  | unsigned hs =>
      refine ⟨fun c hc => ?_, fun c hc => hs.isMargin_of_getLast? hc⟩
      obtain ⟨c', rest, d, rfl, hd⟩ := hs.exists_digit
      cases hc
      exact isMargin_of_digit? hd

theorem integer?_of_writesInteger {n : Int} (hs : dropMargins s = core)
    (h : WritesInteger core n) : integer? s = some n := by
  unfold integer?
  rw [hs]
  cases h with
  | plus hwrites => simp [numeral?_eq_some_iff.mpr hwrites]
  | minus hwrites => simp [numeral?_eq_some_iff.mpr hwrites]
  | unsigned hwrites =>
      have hread := numeral?_eq_some_iff.mpr hwrites
      obtain ⟨c, rest, d, rfl, hd⟩ := hwrites.exists_digit
      -- a digit is no sign, so nothing is taken off the front
      split
      case h_1 heq =>
        cases heq
        cases digit?_sign.2.symm.trans hd
      case h_2 heq =>
        cases heq
        cases digit?_sign.1.symm.trans hd
      case h_3 => simp [hread]

theorem integer?_eq_some_iff {n : Int} :
    integer? s = some n ↔ ∃ core, IsPadded isWhiteSpace core s ∧ WritesInteger core n := by
  rw [← isMargin_eq_isWhiteSpace]
  constructor
  · intro h
    refine ⟨dropMargins s, isPadded_dropMargins s, ?_⟩
    unfold integer? at h
    split at h
    case h_1 rest heq =>
      obtain ⟨k, hk, rfl⟩ : ∃ k, numeral? rest = some k ∧ -(k : Int) = n := by
        simpa [Option.bind_eq_some_iff] using h
      exact heq ▸ .minus (numeral?_eq_some_iff.mp hk)
    case h_2 rest heq =>
      obtain ⟨k, hk, rfl⟩ : ∃ k, numeral? rest = some k ∧ (k : Int) = n := by
        simpa [Option.bind_eq_some_iff] using h
      exact heq ▸ .plus (numeral?_eq_some_iff.mp hk)
    case h_3 =>
      obtain ⟨k, hk, rfl⟩ : ∃ k, numeral? (dropMargins s) = some k ∧ (k : Int) = n := by
        simpa [Option.bind_eq_some_iff] using h
      exact .unsigned (numeral?_eq_some_iff.mp hk)
  · rintro ⟨core, hpadded, hcore⟩
    have hdropped := dropMargins_of_isPadded hpadded (isBare_of_writesInteger hcore)
    exact integer?_of_writesInteger hdropped hcore

end DecisionCycle.Text
