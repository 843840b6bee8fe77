import DecisionCycle.Text.Numeral
import Mathlib.Data.List.DropRight
import Mathlib.Tactic

/-!
Texts with something around them. Trimming a text and dropping the margins of a number
are the same for two kinds of characters: what is of the kind goes at both ends. What is
left has only such characters around it; and a text that neither begins nor ends with one
is what is left of every text that pads it with them.
-/

namespace DecisionCycle.Text

variable {p : Char → Bool} {core s : List Char}

def IsPadded (p : Char → Bool) (core s : List Char) : Prop :=
  ∃ before after, s = before ++ core ++ after ∧
    (∀ c ∈ before, p c = true) ∧ ∀ c ∈ after, p c = true

structure IsBare (p : Char → Bool) (core : List Char) : Prop where
  first : ∀ c, core.head? = some c → p c = false
  last : ∀ c, core.getLast? = some c → p c = false

theorem isPadded_self (p : Char → Bool) (s : List Char) : IsPadded p s s :=
  ⟨[], [], by simp, nofun, nofun⟩

theorem IsPadded.mem (h : IsPadded p core s) {c : Char} (hc : c ∈ s) : p c = true ∨ c ∈ core := by
  obtain ⟨before, after, rfl, hbefore, hafter⟩ := h
  rcases List.mem_append.mp hc with hc | hc
  · exact (List.mem_append.mp hc).imp_left (hbefore c)
  · exact .inl (hafter c hc)

theorem rdropWhile_of_isBare (h : IsBare p core) : core.rdropWhile p = core := by
  refine List.rdropWhile_eq_self_iff.mpr fun hne => ?_
  simp [h.last _ (List.getLast?_eq_some_getLast hne)]

theorem rdropWhile_dropWhile_of_isPadded (h : IsPadded p core s) (hcore : IsBare p core) :
    (s.dropWhile p).rdropWhile p = core := by
  obtain ⟨before, after, rfl, hbefore, hafter⟩ := h
  rw [List.append_assoc, List.dropWhile_append_of_pos hbefore]
  cases core with
  | nil => simp [List.dropWhile_eq_nil_iff.mpr hafter]
  | cons c rest =>
      have hstart : (c :: rest ++ after).dropWhile p = c :: rest ++ after :=
        List.dropWhile_cons_of_neg (by simp [hcore.first c rfl])
      have hend : (c :: rest ++ after).rdropWhile p = (c :: rest).rdropWhile p := by
        rw [List.rdropWhile, List.reverse_append,
          List.dropWhile_append_of_pos (by simpa using hafter)]
        rfl
      rw [hstart, hend, rdropWhile_of_isBare hcore]

theorem isPadded_rdropWhile_dropWhile (p : Char → Bool) (s : List Char) :
    IsPadded p ((s.dropWhile p).rdropWhile p) s := by
  refine ⟨s.takeWhile p, (s.dropWhile p).rtakeWhile p, ?_,
    fun c hc => List.mem_takeWhile_imp hc, fun c hc => List.mem_rtakeWhile_imp hc⟩
  rw [List.append_assoc, List.rdropWhile_append_rtakeWhile, List.takeWhile_append_dropWhile]

/-! ### Blanks and margins -/

theorem bounds_of_isAsciiDigit {c : Char} (h : isAsciiDigit c = true) :
    0x30 ≤ c.toNat ∧ c.toNat ≤ 0x39 := by
  simp only [isAsciiDigit, asciiDigit?, Char.le_def, UInt32.le_iff_toNat_le] at h
  change _ ∧ c.val.toNat ≤ 0x39
  split_ifs at h with hdigit hlower hupper
  · exact hdigit
  · simp [Option.filter] at h
  · simp [Option.filter] at h
  · simp at h

theorem isBlank_of_isAsciiDigit {c : Char} (h : isAsciiDigit c = true) : isBlank c = false := by
  obtain ⟨hlow, hhigh⟩ := bounds_of_isAsciiDigit h
  simp [isBlank]
  omega

theorem trim_of_isPadded (h : IsPadded isBlank core s) (hcore : IsBare isBlank core) :
    trim s = core :=
  rdropWhile_dropWhile_of_isPadded h hcore

theorem isPadded_trim (s : List Char) : IsPadded isBlank (trim s) s :=
  isPadded_rdropWhile_dropWhile isBlank s

theorem dropMargins_of_isPadded (h : IsPadded isMargin core s) (hcore : IsBare isMargin core) :
    dropMargins s = core :=
  rdropWhile_dropWhile_of_isPadded h hcore

theorem isPadded_dropMargins (s : List Char) : IsPadded isMargin (dropMargins s) s :=
  isPadded_rdropWhile_dropWhile isMargin s

end DecisionCycle.Text
