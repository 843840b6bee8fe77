import DecisionCycle.Phase
import DecisionCycle.Proofs.Text.Trim
import Mathlib

/-!
The names of a phase, and when a text is one of them but for the case of its letters. Case
is that of ASCII only: the one character outside ASCII with a lower-case form inside it
stands for a letter that no name has.
-/

namespace DecisionCycle

namespace Text

/-- Two texts are the same but for the case of letters in ASCII. -/
def SameLetters (s t : List Char) : Prop :=
  s.map Char.toLower = t.map Char.toLower

instance (s t : List Char) : Decidable (SameLetters s t) :=
  inferInstanceAs (Decidable (_ = _))

theorem toLower_of_lt {c : Char} (h : c.toNat < 0x41) : c.toLower = c := by
  refine Char.toLower_eq_of_not_isUpper ?_
  simp only [Char.isUpper, decide_eq_true_eq, ge_iff_le, UInt32.le_iff_toNat_le]
  intro hupper
  have hfirst : 0x41 ≤ c.toNat := hupper.1
  omega

theorem toLower_of_le {c : Char} (h : 0x80 ≤ c.toNat) : c.toLower = c := by
  refine Char.toLower_eq_of_not_isUpper fun hupper => ?_
  simp only [Char.isUpper, decide_eq_true_eq, ge_iff_le, UInt32.le_iff_toNat_le] at hupper
  have hlast : c.toNat ≤ 0x5A := hupper.2
  omega

theorem lowerChar_eq_iff {c d : Char} (hk : d ≠ 'k') (hkelvin : d ≠ '\u212a') :
    lowerChar c = d ↔ c.toLower = d := by
  unfold lowerChar
  split
  case isTrue hc =>
    have hlower : c.toLower = '\u212a' := by rw [hc]; decide
    simp [hlower, Ne.symm hk, Ne.symm hkelvin]
  case isFalse => rfl

theorem lower_eq_iff {s t : List Char} (hk : 'k' ∉ t) (hkelvin : '\u212a' ∉ t) :
    lower s = t ↔ s.map Char.toLower = t := by
  induction t generalizing s with
  | nil => simp [lower]
  | cons d t ih =>
      rw [List.mem_cons, not_or] at hk hkelvin
      cases s with
      | nil => simp [lower]
      | cons c s =>
          have hrest := ih hk.2 hkelvin.2 (s := s)
          simp only [lower, List.map_cons, List.cons.injEq] at hrest ⊢
          rw [lowerChar_eq_iff (Ne.symm hk.1) (Ne.symm hkelvin.1), hrest]

end Text

namespace Phase

open Text

def names (p : Phase) : List String :=
  [p.key, p.capitalName, p.title]

/-! ### The names themselves -/

/-- A phase is the first one, and so the only one, with any of its names. -/
theorem find?_isNamed {p : Phase} {name : String} (h : name ∈ p.names) :
    (all.find? fun q => q.isNamed (name.toList.map Char.toLower)) = some p := by
  revert name
  cases p <;> decide +kernel

def initials : List Char :=
  ['i', 'p', 'o', 'a', 'c', 't', 'r', 'd', 'n']

/-- What the letters of a name are, in lower case: they are in ASCII, and one that the
Kelvin sign could stand for is not among them; the first is one of nine, and the last is
not blank. -/
theorem letters_of_name {p : Phase} {name : String} (h : name ∈ p.names) :
    let letters := name.toList.map Char.toLower
    'k' ∉ letters ∧ (∀ c ∈ letters, c.toNat < 0x80) ∧ (∃ c ∈ initials, letters.head? = some c) ∧
      ∀ c, letters.getLast? = some c → isBlank c = false := by
  have hall : ∀ name ∈ p.names, let letters := name.toList.map Char.toLower
      'k' ∉ letters ∧ letters.all (·.toNat < 0x80) ∧ letters.head?.any (· ∈ initials) ∧
        letters.getLast?.all (!isBlank ·) := by
    cases p <;> decide +kernel
  obtain ⟨hk, hascii, hfirst, hlast⟩ := hall name h
  refine ⟨hk, fun c hc => ?_, ?_, fun c hc => ?_⟩
  · exact of_decide_eq_true (List.all_eq_true.mp hascii c hc)
  · cases hhead : (name.toList.map Char.toLower).head? with
    | none =>
        rw [hhead] at hfirst
        cases hfirst
    | some c =>
        rw [hhead] at hfirst
        exact ⟨c, of_decide_eq_true hfirst, rfl⟩
  · simpa [hc] using hlast

theorem lower_eq_name_iff {p : Phase} {name : String} (h : name ∈ p.names) {s : List Char} :
    lower s = name.toList.map Char.toLower ↔ SameLetters s name.toList := by
  obtain ⟨hk, hascii, -⟩ := letters_of_name h
  exact lower_eq_iff hk fun hsign => absurd (hascii _ hsign) (by decide)

theorem lower_name {p : Phase} {name : String} (h : name ∈ p.names) :
    lower name.toList = name.toList.map Char.toLower :=
  (lower_eq_name_iff h).mpr rfl

theorem isNamed_lower_iff {p : Phase} {s : List Char} :
    p.isNamed (lower s) = true ↔ ∃ name ∈ p.names, SameLetters s name.toList := by
  have hkey : lower p.key.toList = p.key.toList := by
    cases p <;> decide +kernel
  have hnames : p.isNamed (lower s) = true ↔ ∃ name ∈ p.names, lower s = lower name.toList := by
    simp [isNamed, names, hkey, or_assoc]
  rw [hnames]
  refine exists_congr fun name => and_congr_right fun hname => ?_
  rw [lower_name hname, lower_eq_name_iff hname]

theorem parse?_eq_some_iff {t : Text} {p : Phase} :
    parse? t = some p ↔
      ∃ s, t = ofChars s ∧ ∃ name ∈ p.names, SameLetters (trim s) name.toList := by
  simp only [parse?, Option.bind_eq_some_iff, chars?_eq_some_iff]
  refine exists_congr fun s => and_congr_right fun _ => ?_
  constructor
  · intro h
    exact isNamed_lower_iff.mp (by simpa using List.find?_some h)
  · rintro ⟨name, hname, hsame⟩
    rw [(lower_eq_name_iff hname).mpr hsame]
    exact find?_isNamed hname

end Phase

end DecisionCycle
