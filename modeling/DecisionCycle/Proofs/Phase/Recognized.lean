import DecisionCycle.Payload
import DecisionCycle.Proofs.Number.Text
import DecisionCycle.Proofs.Phase.Names
import DecisionCycle.Proofs.Timestamp.RoundTrip

/-!
Which values name a phase. A text does if it is a name of the phase but for blanks around
it and the case of its letters, and nothing else does. For values that are no texts this is
seen from what they look like as text: all but a few short words begin with a character
with which no name begins.
-/

namespace DecisionCycle

open Text

/-- A value names a phase: it is a text, which without the blanks around it is one of the
names of the phase, but for the case of letters in ASCII. -/
def Value.Names (v : Value) (p : Phase) : Prop :=
  ∃ s spelling, v = .str (ofChars s) ∧ IsPadded isBlank spelling s ∧
    ∃ name ∈ p.names, SameLetters spelling name.toList

namespace Phase

theorem toLower_eq_of_isBlank {c : Char} (h : isBlank c = true) : c.toLower = c := by
  refine Char.toLower_eq_of_not_isUpper fun hupper => ?_
  simp only [Char.isUpper, decide_eq_true_eq, ge_iff_le, UInt32.le_iff_toNat_le] at hupper
  have hbounds : 0x41 ≤ c.toNat ∧ c.toNat ≤ 0x5A := hupper
  simp [isBlank] at h
  omega

theorem head?_of_sameLetters {p : Phase} {name : String} (hname : name ∈ p.names)
    {spelling : List Char} (h : SameLetters spelling name.toList) :
    ∃ c, spelling.head? = some c ∧ c.toLower ∈ initials := by
  obtain ⟨-, -, ⟨initial, hinitial, hhead⟩, -⟩ := letters_of_name hname
  rw [← h, List.head?_map] at hhead
  obtain ⟨c, hc, rfl⟩ := Option.map_eq_some_iff.mp hhead
  exact ⟨c, hc, hinitial⟩

theorem isBlank_of_mem_initials {c : Char} (h : c.toLower ∈ initials) : isBlank c = false := by
  by_contra hblank
  rw [toLower_eq_of_isBlank (eq_true_of_ne_false hblank)] at h
  revert hblank
  fin_cases h <;> decide

theorem isBare_of_sameLetters {p : Phase} {name : String} (hname : name ∈ p.names)
    {spelling : List Char} (h : SameLetters spelling name.toList) : IsBare isBlank spelling where
  first c hc := by
    obtain ⟨c', hc', hinitial⟩ := head?_of_sameLetters hname h
    obtain rfl : c' = c := Option.some.inj (hc'.symm.trans hc)
    exact isBlank_of_mem_initials hinitial
  last c hc := by
    obtain ⟨-, -, -, hlast⟩ := letters_of_name hname
    have hlower : isBlank c.toLower = false := by
      refine hlast c.toLower ?_
      rw [← h, List.getLast?_map, hc]
      rfl
    -- a blank has no other case, so it would be the last letter of the name
    by_contra hblank
    have hblank : isBlank c = true := eq_true_of_ne_false hblank
    rw [toLower_eq_of_isBlank hblank, hblank] at hlower
    cases hlower

theorem parse?_eq_some_iff_names {t : Text} {p : Phase} :
    parse? t = some p ↔ (Value.str t).Names p := by
  rw [parse?_eq_some_iff]
  constructor
  · rintro ⟨s, rfl, name, hname, hsame⟩
    exact ⟨s, trim s, rfl, isPadded_trim s, name, hname, hsame⟩
  · rintro ⟨s, spelling, ht, hpadded, name, hname, hsame⟩
    cases ht
    refine ⟨s, rfl, name, hname, ?_⟩
    rwa [trim_of_isPadded hpadded (isBare_of_sameLetters hname hsame)]

/-! ### Texts that name no phase -/

theorem exists_initial {s : List Char} {p : Phase} (h : parse? (ofChars s) = some p) :
    ∃ before c rest, s = before ++ c :: rest ∧ (∀ b ∈ before, isBlank b = true) ∧
      c.toLower ∈ initials := by
  obtain ⟨s', spelling, hs, ⟨before, after, hsplit, hbefore, -⟩, name, hname, hsame⟩ :=
    parse?_eq_some_iff_names.mp h
  obtain ⟨c, hc, hinitial⟩ := head?_of_sameLetters hname hsame
  obtain ⟨rest, rfl⟩ : ∃ rest, spelling = c :: rest := List.head?_eq_some_iff.mp hc
  have hsame : s = s' := ofChars_inj.mp (Value.str.inj hs)
  exact ⟨before, c, rest ++ after, by simp [hsame, hsplit], hbefore, hinitial⟩

theorem parse?_eq_none_of_forall {s : List Char} (h : ∀ c ∈ s, c.toLower ∉ initials) :
    parse? (ofChars s) = none := by
  by_contra hnone
  obtain ⟨p, hp⟩ := Option.ne_none_iff_exists'.mp hnone
  obtain ⟨before, c, rest, rfl, -, hinitial⟩ := exists_initial hp
  exact h c (by simp) hinitial

theorem parse?_eq_none_of_first {c : Char} (hblank : isBlank c = false)
    (hc : c.toLower ∉ initials) (rest : List Char) : parse? (ofChars (c :: rest)) = none := by
  by_contra hnone
  obtain ⟨p, hp⟩ := Option.ne_none_iff_exists'.mp hnone
  obtain ⟨before, c', rest', hsplit, hbefore, hinitial⟩ := exists_initial hp
  cases before with
  | nil =>
      rw [(List.cons.inj hsplit).1] at hc
      exact hc hinitial
  | cons b before =>
      rw [(List.cons.inj hsplit).1, hbefore b List.mem_cons_self] at hblank
      cases hblank

theorem not_mem_initials_of_lt {c : Char} (h : c.toNat < 0x41) : c.toLower ∉ initials := by
  rw [toLower_of_lt h]
  intro hmem
  revert h
  fin_cases hmem <;> decide

theorem not_mem_initials_of_isNumeric {c : Char} (h : Number.IsNumeric c) :
    c.toLower ∉ initials := by
  rcases h with hdigit | hother
  · refine not_mem_initials_of_lt ?_
    simp only [Char.isDigit, Bool.and_eq_true, decide_eq_true_eq, UInt32.le_iff_toNat_le] at hdigit
    have hlast : c.toNat ≤ 0x39 := hdigit.2
    omega
  · fin_cases hother <;> decide

theorem parse?_ofString_eq_none {s : String} {c : Char} (hs : s.toList.head? = some c)
    (hblank : isBlank c = false) (hc : c.toLower ∉ initials) : parse? s = none := by
  obtain ⟨rest, hrest⟩ : ∃ rest, s.toList = c :: rest := List.head?_eq_some_iff.mp hs
  rw [ofString, hrest]
  exact parse?_eq_none_of_first hblank hc rest

theorem parse?_ofString_eq_none_of_digit {s : String} {c : Char} (hs : s.toList.head? = some c)
    (hc : isAsciiDigit c = true) : parse? s = none := by
  obtain ⟨-, hlast⟩ := bounds_of_isAsciiDigit hc
  exact parse?_ofString_eq_none hs (isBlank_of_isAsciiDigit hc) (not_mem_initials_of_lt (by omega))

end Phase

/-! ### Values -/

namespace Value

theorem parse?_toString (n : Int) : Phase.parse? (toString n) = none := by
  refine Phase.parse?_eq_none_of_forall fun c hc => Phase.not_mem_initials_of_isNumeric ?_
  cases n with
  | ofNat n =>
      have hdigits : (toString (Int.ofNat n)).toList = Nat.toDigits 10 n := String.toList_ofList
      exact Number.isNumeric_of_mem_toDigits (hdigits ▸ hc)
  | negSucc n =>
      have hdigits : (toString (Int.negSucc n)).toList = '-' :: Nat.toDigits 10 (n + 1) := by
        simp [toString, Int.repr, Nat.repr]
      rw [hdigits] at hc
      rcases List.mem_cons.mp hc with rfl | hc
      · exact .inr (by decide)
      · exact Number.isNumeric_of_mem_toDigits hc

theorem parse?_numberText (x : Number) : Phase.parse? x.text = none := by
  cases x with
  | nan => decide +kernel
  | infinite negative => cases negative <;> decide +kernel
  | finite negative mantissa exponent =>
      exact Phase.parse?_eq_none_of_forall fun c hc =>
        Phase.not_mem_initials_of_isNumeric (Number.isNumeric_of_mem_text hc)

/-- What a value looks like as text names a phase only if the value is that text. -/
theorem parse?_text_eq_some_iff (v : Value) (p : Phase) :
    Phase.parse? (v.orElse (.str "")).text = some p ↔ v.Names p := by
  have hother {w : Value} (hw : ∀ s, w ≠ .str s)
      (hnone : Phase.parse? (w.orElse (.str "")).text = none) :
      Phase.parse? (w.orElse (.str "")).text = some p ↔ w.Names p := by
    rw [hnone]
    constructor
    · intro h
      cases h
    · rintro ⟨s, -, rfl, -⟩
      exact absurd rfl (hw _)
  -- a value that is not given looks like the empty text, and that is no name either
  have hgap {w : Value} (hw : Phase.parse? w.text = none) :
      Phase.parse? (w.orElse (.str "")).text = none := by
    unfold orElse
    split
    · exact hw
    · decide +kernel
  cases v with
  | str s =>
      have htext : ((Value.str s).orElse (.str "")).text = s := by
        obtain ⟨_ | _⟩ := s <;> rfl
      rw [htext, Phase.parse?_eq_some_iff_names]
  | null => exact hother (by simp) (by decide +kernel)
  | bool b => exact hother (by simp) (by cases b <;> decide +kernel)
  | int n => exact hother (by simp) (hgap (parse?_toString n))
  | float x => exact hother (by simp) (hgap (parse?_numberText x))
  | list items =>
      have hfirst : (literal (.list items)).toList.head? = some '[' := by simp [literal]
      exact hother (by simp) (hgap (Phase.parse?_ofString_eq_none hfirst (by decide) (by decide)))
  | dict entries =>
      have hfirst : (literal (.dict entries)).toList.head? = some '\x7b' := by simp [literal]
      exact hother (by simp) (hgap (Phase.parse?_ofString_eq_none hfirst (by decide) (by decide)))
  | date d =>
      have hfirst : (String.ofList d.chars).toList.head? =
          some (digitChar (d.year / 10 / 10 / 10)) := by
        simp [Date.chars, fixedDigits]
      exact hother (by simp)
        (hgap (Phase.parse?_ofString_eq_none_of_digit hfirst (isAsciiDigit_digitChar _)))
  | time t =>
      have hfirst : t.spacedText.toList.head? = some (digitChar (t.date.year / 10 / 10 / 10)) := by
        simp [Timestamp.spacedText, Date.chars, fixedDigits]
      exact hother (by simp)
        (hgap (Phase.parse?_ofString_eq_none_of_digit hfirst (isAsciiDigit_digitChar _)))

/-! ### The phase of a value -/

variable {v : Value} {p q : Phase}

theorem toPhase_cases (v : Value) :
    (∃ p, v.toPhase = .ok p) ∨ v.toPhase = .error v.namesNoPhase := by
  unfold toPhase
  split
  · split
    · exact .inl ⟨_, rfl⟩
    · exact .inr rfl
  · exact .inr rfl

theorem toPhase_eq_ok_iff : v.toPhase = .ok p ↔ v.Names p := by
  cases v with
  | str s =>
      rw [← Phase.parse?_eq_some_iff_names, toPhase]
      cases Phase.parse? s <;> simp
  | _ =>
      constructor
      · intro h
        cases h
      · rintro ⟨_, _, ⟨⟩, _⟩

theorem toOption_toPhase (v : Value) :
    v.toPhase.toOption = Phase.parse? (v.orElse (.str "")).text := by
  refine Option.ext fun p => ?_
  rw [parse?_text_eq_some_iff, ← toPhase_eq_ok_iff]
  cases v.toPhase <;> simp [Except.toOption]

theorem Names.unique (hp : v.Names p) (hq : v.Names q) : p = q := by
  rw [← toPhase_eq_ok_iff] at hp hq
  exact Except.ok.inj (hp.symm.trans hq)

theorem Names.isBlank_or_lt {s : List Char} (h : (Value.str (ofChars s)).Names p) {c : Char}
    (hc : c ∈ s) : isBlank c = true ∨ c.toNat < 0x80 := by
  obtain ⟨s', spelling, hs, hpadded, name, hname, hsame⟩ := h
  obtain rfl : s = s' := ofChars_inj.mp (Value.str.inj hs)
  refine (hpadded.mem hc).imp_right fun hmem => ?_
  obtain ⟨-, hascii, -⟩ := Phase.letters_of_name hname
  have hlower : c.toLower.toNat < 0x80 := hascii _ (hsame ▸ List.mem_map_of_mem hmem)
  -- outside ASCII a character is its own lower-case form
  by_contra hlarge
  rw [toLower_of_le (by omega)] at hlower
  exact hlarge hlower

theorem label_namesNoPhase (v : Value) : v.namesNoPhase.label = "ValueError" := by
  unfold namesNoPhase
  split <;> rfl

/-- How the phase of a value is found: by the names of phases, of which a value has at most
one, and only in ASCII; and whatever has none is refused. -/
structure ResolvesByName (v : Value) : Prop where
  named (p : Phase) : v.toPhase = .ok p ↔ v.Names p
  asText : v.toPhase.toOption = Phase.parse? (v.orElse (.str "")).text
  itself {p : Phase} : v = .str p.key → v.toPhase = .ok p
  unique {p q : Phase} : v.Names p → v.Names q → p = q
  ascii {s : List Char} {p : Phase} : v = .str (ofChars s) → v.toPhase = .ok p →
    ∀ c ∈ s, isBlank c = true ∨ c.toNat < 0x80
  refused : (∀ p, ¬v.Names p) → ∃ fault, v.toPhase = .error fault ∧
    fault.label = "ValueError" ∧
      (v.isWritable = true → fault.message? = some ("Unknown phase: " ++ v.literal))

/-- **Phases by name.** A value is read as a phase exactly if it is a text that has one of
the names of the phase, blanks around it and the case of ASCII letters aside. -/
theorem toPhase_resolvesByName (v : Value) : v.ResolvesByName where
  named _ := toPhase_eq_ok_iff
  asText := toOption_toPhase v
  itself := by
    rintro p rfl
    exact toPhase_key p
  unique hp hq := hp.unique hq
  ascii := by
    rintro s p rfl h c hc
    exact (toPhase_eq_ok_iff.mp h).isBlank_or_lt hc
  refused hnone := by
    rcases toPhase_cases v with ⟨p, hp⟩ | hfault
    · exact absurd (toPhase_eq_ok_iff.mp hp) (hnone p)
    · refine ⟨v.namesNoPhase, hfault, label_namesNoPhase v, fun hwritable => ?_⟩
      rw [namesNoPhase, if_pos hwritable]
      rfl

/-- Capitals, small letters and blanks of several kinds, in one spelling. -/
example : (Value.str "\u2003nOTES & Next STEPS\t").toPhase.toOption = some .notesNextSteps := by
  decide +kernel

end Value

end DecisionCycle
