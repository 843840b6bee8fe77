import DecisionCycle.Timestamp.Text
import Mathlib.Tactic

/-!
Reading what printing writes. Each part of a printed timestamp is read back by
the reader of that part, with whatever follows it left over: first numbers of a
fixed width, then date, time of day and offset. The one thing that is lost is an
offset of less than a second, which the reader takes for none. So the main
statement says that the text of a timestamp is read as `Timestamp.reread`, and
that this is the timestamp itself unless its offset is of that kind. A timestamp
that comes out of a text never has such an offset.
-/

namespace DecisionCycle

open Text

/-! ### Numbers of a fixed width -/

theorem asciiDigit?_digitChar (n : Nat) : asciiDigit? 10 (digitChar n) = some (n % 10) := by
  have hlt : n % 10 < 10 := Nat.mod_lt _ (by omega)
  unfold digitChar
  -- what is left is a fact about each of the ten digits
  generalize n % 10 = d at hlt
  revert d
  decide

@[simp] theorem isAsciiDigit_digitChar (n : Nat) : isAsciiDigit (digitChar n) = true := by
  simp [isAsciiDigit, asciiDigit?_digitChar]

@[simp] theorem length_fixedDigits (width n : Nat) : (fixedDigits width n).length = width := by
  induction width generalizing n with
  | zero => rfl
  | succ width ih => simp [fixedDigits, ih]

theorem isAsciiDigit_of_mem_fixedDigits {width n : Nat} {c : Char}
    (hc : c ∈ fixedDigits width n) : isAsciiDigit c = true := by
  induction width generalizing n with
  | zero => simp [fixedDigits] at hc
  | succ width ih =>
      rcases List.mem_append.mp hc with hc | hc
      · exact ih hc
      · rw [List.mem_singleton.mp hc]
        exact isAsciiDigit_digitChar n

theorem foldlM_fixedDigits (width n acc : Nat) :
    (fixedDigits width n).foldlM (fun n c => (asciiDigit? 10 c).map (10 * n + ·)) acc =
      some (acc * 10 ^ width + n % 10 ^ width) := by
  induction width generalizing n with
  | zero => simp [fixedDigits, Nat.mod_one]
  | succ width ih =>
      rw [fixedDigits, List.foldlM_append, ih]
      have hsplit : n % 10 ^ (width + 1) = 10 * (n / 10 % 10 ^ width) + n % 10 := by
        rw [Nat.pow_succ, Nat.mul_comm, Nat.mod_mul, Nat.add_comm]
      simp only [List.foldlM_cons, List.foldlM_nil, asciiDigit?_digitChar, Option.map_some,
        Option.bind_eq_bind, Option.bind_some, Option.pure_def, Option.some.injEq]
      rw [hsplit, Nat.pow_succ]
      ring

theorem natural?_fixedDigits {width n : Nat} (hw : 0 < width) (hn : n < 10 ^ width) :
    natural? 10 (fixedDigits width n) = some n := by
  obtain ⟨width, rfl⟩ := Nat.exists_eq_succ_of_ne_zero hw.ne'
  have hfold := foldlM_fixedDigits (width + 1) n 0
  rw [Nat.zero_mul, Nat.zero_add, Nat.mod_eq_of_lt hn] at hfold
  cases hs : fixedDigits (width + 1) n with
  | nil => simp [fixedDigits] at hs
  | cons c rest => rw [← hfold, hs]; rfl

theorem readDigits?_fixedDigits {width n : Nat} (hw : 0 < width) (hn : n < 10 ^ width)
    (rest : List Char) : readDigits? width (fixedDigits width n ++ rest) = some (n, rest) := by
  have htake : (fixedDigits width n ++ rest).take width = fixedDigits width n :=
    List.take_left' (length_fixedDigits width n)
  have hdrop : (fixedDigits width n ++ rest).drop width = rest :=
    List.drop_left' (length_fixedDigits width n)
  rw [readDigits?, htake, hdrop, if_pos (length_fixedDigits width n),
    natural?_fixedDigits hw hn]
  rfl

theorem fixedDigits_append_ne {width n : Nat} {c : Char} {rest : List Char} (hw : 0 < width)
    (hc : isAsciiDigit c = false) (tail : List Char) :
    fixedDigits width n ++ rest ≠ c :: tail := by
  intro heq
  cases hs : fixedDigits width n with
  | nil => simpa [hs, hw.ne] using length_fixedDigits width n
  | cons a l =>
      rw [hs, List.cons_append] at heq
      have ha : isAsciiDigit a = true := isAsciiDigit_of_mem_fixedDigits (hs ▸ List.mem_cons_self)
      rw [(List.cons.inj heq).1, hc] at ha
      exact Bool.false_ne_true ha

theorem readDigits?_fixedDigits_nil {width n : Nat} (hw : 0 < width) (hn : n < 10 ^ width) :
    readDigits? width (fixedDigits width n) = some (n, []) := by
  simpa using readDigits?_fixedDigits hw hn []

/-! ### Dates -/

namespace Date

theorem length_chars (d : Date) : d.chars.length = 10 := by
  simp [chars]

theorem daysInMonth_le (year month : Nat) : daysInMonth year month ≤ 31 := by
  rcases month with _ | m
  · simp [daysInMonth]
  · unfold daysInMonth monthLengths
    rcases m with _ | _ | _ | _ | _ | _ | _ | _ | _ | _ | _ | _ | m <;> simp
    split <;> omega

theorem month_le {d : Date} (h : d.Exists) : d.month ≤ 12 := by
  obtain ⟨-, -, hone, hday⟩ := h
  by_contra hlt
  obtain ⟨m, hm⟩ : ∃ m, d.month = m + 13 := ⟨d.month - 13, by omega⟩
  have : daysInMonth d.year d.month = 0 := by
    simp [hm, daysInMonth, monthLengths]
  omega

theorem ofChars?_chars {d : Date} (h : d.Exists) : ofChars? d.chars = some d := by
  have hyear : d.year < 10 ^ 4 := by have := h.2.1; omega
  have hmonth : d.month < 10 ^ 2 := by have := month_le h; omega
  have hday : d.day < 10 ^ 2 := by
    have := h.2.2.2
    have := daysInMonth_le d.year d.month
    omega
  unfold ofChars? chars
  rw [List.append_assoc, readDigits?_fixedDigits (by omega) hyear]
  simp only [List.cons_append, Option.bind_eq_bind, Option.bind_some]
  split
  case h_1 heq => exact absurd heq (fixedDigits_append_ne (by omega) (by decide) _)
  case h_2 =>
    rw [readDigits?_fixedDigits (by omega) hmonth]
    simp only [Option.bind_some, readDigits?_fixedDigits_nil (by omega : 0 < 2) hday]

theorem width_chars (d : Date) (rest : List Char) : width (d.chars ++ rest) = 10 := by
  have hyear : (d.chars ++ rest).drop 4 =
      '-' :: (fixedDigits 2 d.month ++ ('-' :: fixedDigits 2 d.day ++ rest)) := by
    simp [chars]
  unfold width
  rw [hyear]
  split
  case h_1 tail heq =>
    exact absurd (List.cons.inj heq).2 (fixedDigits_append_ne (by omega) (by decide) _)
  case h_2 => rfl
  case h_3 heq => cases heq
  case h_4 hnot _ => exact absurd rfl (hnot _)

end Date

/-! ### Times of day and lengths of offsets

Both are rows of numbers of two digits with colons between them and perhaps a
fraction at the end. The lemmas on `readParts?` follow such a row number by
number. -/

namespace Clock

theorem readFraction?_fixedDigits {micro : Nat} (h : micro < 10 ^ 6) :
    readFraction? (fixedDigits 6 micro) = some (micro, true) := by
  have htake : (fixedDigits 6 micro).take 6 = fixedDigits 6 micro :=
    List.take_of_length_le (by simp)
  have hpad : (fixedDigits 6 micro ++ List.replicate 6 '0').take 6 = fixedDigits 6 micro :=
    List.take_left' (by simp)
  have hdrop : (fixedDigits 6 micro).drop 6 = [] := List.drop_of_length_le (by simp)
  have hall : (fixedDigits 6 micro).all isAsciiDigit = true :=
    List.all_eq_true.mpr fun _ hc => isAsciiDigit_of_mem_fixedDigits hc
  rw [readFraction?, htake, hpad, hdrop, if_pos hall, natural?_fixedDigits (by omega) h]
  rfl

theorem readParts?_last {n : Nat} (count : Nat) (colons : Option Bool) (h : n < 10 ^ 2) :
    readParts? (count + 1) colons (fixedDigits 2 n) = some ([n], 0, true) := by
  rw [readParts?, readDigits?_fixedDigits_nil (by omega) h]
  rfl

theorem readParts?_fraction {n micro : Nat} (count : Nat) (colons : Option Bool)
    (h : n < 10 ^ 2) (hmicro : micro < 10 ^ 6) :
    readParts? (count + 1) colons (fixedDigits 2 n ++ '.' :: fixedDigits 6 micro) =
      some ([n], micro, true) := by
  have hread := readFraction?_fixedDigits hmicro
  rw [readParts?, readDigits?_fixedDigits (by omega) h]
  cases hs : fixedDigits 6 micro with
  | nil => simpa [hs] using length_fixedDigits 6 micro
  | cons a l =>
      rw [hs] at hread
      simp [readParts?, hread]

theorem readParts?_colon {n count : Nat} (colons : Option Bool) {rest : List Char}
    {parts : List Nat × Nat × Bool} (h : n < 10 ^ 2) (hcolons : colons.getD true = true)
    (hne : rest ≠ []) (hrest : readParts? count (some true) rest = some parts) :
    readParts? (count + 1) colons (fixedDigits 2 n ++ ':' :: rest) =
      some (n :: parts.1, parts.2) := by
  rw [readParts?, readDigits?_fixedDigits (by omega) h]
  cases rest with
  | nil => exact absurd rfl hne
  | cons a l => simp [hcolons, hrest]

theorem readParts?_seconds {second micro : Nat} (count : Nat) (colons : Option Bool)
    (hsecond : second < 10 ^ 2) (hmicro : micro < 10 ^ 6) :
    readParts? (count + 1) colons (fixedDigits 2 second ++ fractionChars micro) =
      some ([second], micro, true) := by
  unfold fractionChars
  split
  case isTrue hzero =>
    rw [List.append_nil, hzero]
    exact readParts?_last count colons hsecond
  case isFalse => exact readParts?_fraction count colons hsecond hmicro

theorem ofChars?_chars {c : Clock} (h : c.Exists) : ofChars? c.chars = some (c, true) := by
  obtain ⟨hhour, hminute, hsecond, hmicro⟩ := h
  have hseconds := readParts?_seconds 0 (some true) (by omega : c.second < 10 ^ 2)
    (by omega : c.micro < 10 ^ 6)
  -- from the end of the row to its beginning: the rest is read before the number
  have hminutes := readParts?_colon (some true) (by omega : c.minute < 10 ^ 2) rfl
    (by simp [fixedDigits]) hseconds
  have hhours := readParts?_colon none (by omega : c.hour < 10 ^ 2) rfl
    (by simp [fixedDigits]) hminutes
  have hchars : c.chars = fixedDigits 2 c.hour ++ ':' :: (fixedDigits 2 c.minute ++
      ':' :: (fixedDigits 2 c.second ++ fractionChars c.micro)) := by
    simp [chars]
  rw [ofChars?, hchars, hhours]
  rfl

theorem ofChars?_offsetChars {c : Clock} (h : c.Exists) :
    ofChars? c.offsetChars = some (c, true) := by
  obtain ⟨hhour, hminute, hsecond, hmicro⟩ := h
  by_cases hwhole : c.second = 0 ∧ c.micro = 0
  · have hminutes := readParts?_last 1 (some true) (by omega : c.minute < 10 ^ 2)
    have hhours := readParts?_colon none (by omega : c.hour < 10 ^ 2) rfl
      (by simp [fixedDigits]) hminutes
    have hchars : c.offsetChars = fixedDigits 2 c.hour ++ ':' :: fixedDigits 2 c.minute := by
      simp [offsetChars, hwhole]
    rw [ofChars?, hchars, hhours]
    cases c
    simp_all
  · have hchars : c.offsetChars = c.chars := by
      simp [offsetChars, chars, hwhole]
    rw [hchars]
    exact ofChars?_chars ⟨hhour, hminute, hsecond, hmicro⟩

@[simp] theorem micros_ofMicros (n : Nat) : (ofMicros n).micros = n := by
  simp only [ofMicros, micros]
  omega

theorem exists_ofMicros {n : Nat} (h : n < dayMicros) : (ofMicros n).Exists := by
  simp only [dayMicros] at h
  refine ⟨?_, ?_, ?_, ?_⟩ <;> simp only [ofMicros] <;> omega

end Clock

/-! ### Timestamps -/

namespace Timestamp

/-- An offset as it is read from its text: one of less than a second is none. -/
def rereadOffset (offset : Int) : Int :=
  if offset.natAbs < 1000000 then 0 else offset

theorem natAbs_rereadOffset_le (offset : Int) :
    (rereadOffset offset).natAbs ≤ offset.natAbs := by
  unfold rereadOffset
  split <;> simp

def reread (t : Timestamp) : Timestamp where
  date := t.date
  clock := t.clock
  offset := t.offset.map rereadOffset
  valid := by
    refine ⟨t.valid.1, t.valid.2.1, ?_⟩
    have hlt := t.valid.2.2
    cases ho : t.offset with
    | none => decide
    | some offset =>
        rw [ho] at hlt
        exact (natAbs_rereadOffset_le offset).trans_lt hlt

/-- The text of the timestamp tells its offset: there is none, it is zero, or it
comes to a second or more. -/
def IsLegible (t : Timestamp) : Prop :=
  ∀ offset, t.offset = some offset → offset = 0 ∨ 1000000 ≤ offset.natAbs

theorem reread_eq_self {t : Timestamp} (h : t.IsLegible) : t.reread = t := by
  obtain ⟨date, clock, offset, valid⟩ := t
  cases offset with
  | none => rfl
  | some offset =>
      have hsame : rereadOffset offset = offset := by
        unfold rereadOffset
        rcases h offset rfl with rfl | hlong
        · rfl
        · exact if_neg (by omega)
      simp [reread, hsame]

theorem isLegible_reread (t : Timestamp) : t.reread.IsLegible := by
  intro x hx
  obtain ⟨offset, -, rfl⟩ := Option.map_eq_some_iff.mp hx
  unfold rereadOffset
  split <;> omega

theorem reread_eq_self_iff {t : Timestamp} : t.reread = t ↔ t.IsLegible :=
  ⟨fun h => h ▸ t.isLegible_reread, reread_eq_self⟩

theorem isLegible_of_offset_eq_zero {t : Timestamp} (h : t.offset = some 0) : t.IsLegible := by
  intro offset hoffset
  rw [h] at hoffset
  exact .inl (Option.some.inj hoffset).symm

theorem IsLegible.assumeUtc {t : Timestamp} (h : t.IsLegible) : t.assumeUtc.IsLegible := by
  cases ho : t.offset with
  | none => exact isLegible_of_offset_eq_zero (by simp [Timestamp.assumeUtc, ho])
  | some offset =>
      intro x hx
      refine h x ?_
      simpa [Timestamp.assumeUtc, ho] using hx

theorem assumeUtc_eq_self {t : Timestamp} (h : t.offset.isSome) : t.assumeUtc = t := by
  obtain ⟨date, clock, _ | offset, valid⟩ := t
  · cases h
  · rfl

theorem beginsOffset_eq_false {c : Char} (h : isAsciiDigit c = true) :
    beginsOffset c = false := by
  by_contra hbegins
  simp only [beginsOffset, Bool.or_eq_true, beq_iff_eq, Bool.not_eq_false] at hbegins
  rcases hbegins with (rfl | rfl) | rfl <;> revert h <;> decide

theorem beginsOffset_of_mem_clock {clock : Clock} {c : Char} (h : c ∈ clock.chars) :
    beginsOffset c = false := by
  simp only [Clock.chars, Clock.fractionChars, List.mem_append, List.mem_cons] at h
  rcases h with ((h | rfl | h) | rfl | h) | h
  · exact beginsOffset_eq_false (isAsciiDigit_of_mem_fixedDigits h)
  · decide
  · exact beginsOffset_eq_false (isAsciiDigit_of_mem_fixedDigits h)
  · decide
  · exact beginsOffset_eq_false (isAsciiDigit_of_mem_fixedDigits h)
  · split at h
    · simp at h
    · rcases List.mem_cons.mp h with rfl | h
      · decide
      · exact beginsOffset_eq_false (isAsciiDigit_of_mem_fixedDigits h)

theorem readOffset?_offsetChars {n : Nat} (h : n < dayMicros) :
    readOffset? (Clock.ofMicros n).offsetChars = some (if n < 1000000 then 0 else n) := by
  simp [readOffset?, Clock.ofChars?_offsetChars (Clock.exists_ofMicros h), offsetMicros]

theorem readTime?_chars {clock : Clock} (hclock : clock.Exists) {offset : Option Int}
    (hoffset : (offset.getD 0).natAbs < dayMicros) :
    readTime? (clock.chars ++ (offset.map offsetText).getD []) =
      some (clock, offset.map rereadOffset) := by
  have hplain : ∀ c ∈ clock.chars, (!beginsOffset c) = true := fun c hc => by
    rw [beginsOffset_of_mem_clock hc]; rfl
  cases offset with
  | none =>
      rw [readTime?, List.takeWhile_append_of_pos hplain, List.dropWhile_append_of_pos hplain]
      simp [Clock.ofChars?_chars hclock]
  | some offset =>
      have hread := readOffset?_offsetChars hoffset
      rw [readTime?, List.takeWhile_append_of_pos hplain, List.dropWhile_append_of_pos hplain]
      simp only [Option.getD_some] at hread
      -- the reader takes a length for zero below a second, and then applies the sign
      by_cases hneg : offset < 0
      · have hvalue : -((if offset.natAbs < 1000000 then 0 else offset.natAbs : Nat) : Int) =
            rereadOffset offset := by
          unfold rereadOffset
          split <;> omega
        simp [offsetText, hneg, beginsOffset, Clock.ofChars?_chars hclock, hread, ← hvalue]
      · have hvalue : ((if offset.natAbs < 1000000 then 0 else offset.natAbs : Nat) : Int) =
            rereadOffset offset := by
          unfold rereadOffset
          split <;> omega
        simp [offsetText, hneg, beginsOffset, Clock.ofChars?_chars hclock, hread, ← hvalue]

/-- The text of a timestamp is read, and as the same point in time with the same
offset, but for an offset of less than a second. -/
theorem ofChars?_chars (t : Timestamp) : ofChars? t.chars = some t.reread := by
  have hchars : t.chars =
      t.date.chars ++ 'T' :: (t.clock.chars ++ (t.offset.map offsetText).getD []) := by
    simp [chars]
  have hwidth : Date.width t.chars = 10 := by rw [hchars, Date.width_chars]
  have htake : t.chars.take 10 = t.date.chars := by
    rw [hchars, List.take_left' (Date.length_chars _)]
  have hdrop : t.chars.drop 10 =
      'T' :: (t.clock.chars ++ (t.offset.map offsetText).getD []) := by
    rw [hchars, List.drop_left' (Date.length_chars _)]
  rw [ofChars?, hwidth, htake, hdrop, Date.ofChars?_chars t.valid.1]
  simp only [Option.bind_eq_bind, Option.bind_some,
    readTime?_chars t.valid.2.1 t.valid.2.2]
  exact dif_pos t.reread.valid

theorem offset_of_ofParts? {date : Date} {clock : Clock} {offset : Option Int} {t : Timestamp}
    (h : ofParts? date clock offset = some t) : t.offset = offset := by
  unfold ofParts? at h
  split at h
  · exact congrArg Timestamp.offset (Option.some.inj h).symm
  · cases h

theorem readOffset?_eq_zero_or {s : List Char} {n : Nat} (h : readOffset? s = some n) :
    n = 0 ∨ 1000000 ≤ n := by
  unfold readOffset? at h
  split at h
  · rw [← Option.some.inj h, offsetMicros]
    split <;> omega
  · cases h

theorem readTime?_offset {s : List Char} {clock : Clock} {offset : Option Int}
    (h : readTime? s = some (clock, offset)) {x : Int} (hx : offset = some x) :
    x = 0 ∨ 1000000 ≤ x.natAbs := by
  subst hx
  unfold readTime? at h
  simp only [Option.bind_eq_bind, Option.bind_eq_some_iff] at h
  obtain ⟨⟨c, finished⟩, -, h⟩ := h
  split at h
  case h_1 => split at h <;> simp at h
  case h_2 =>
    obtain ⟨n, hn, h⟩ := Option.bind_eq_some_iff.mp h
    have := readOffset?_eq_zero_or hn
    simp only [Option.pure_def, Option.some.injEq, Prod.mk.injEq] at h
    omega
  case h_3 =>
    obtain ⟨n, hn, h⟩ := Option.bind_eq_some_iff.mp h
    have := readOffset?_eq_zero_or hn
    simp only [Option.pure_def, Option.some.injEq, Prod.mk.injEq] at h
    omega
  case h_4 =>
    split at h
    · simp only [Option.pure_def, Option.some.injEq, Prod.mk.injEq] at h
      omega
    · cases h

/-- What comes out of a text has an offset that its text tells. -/
theorem isLegible_of_ofChars? {s : List Char} {t : Timestamp} (h : ofChars? s = some t) :
    t.IsLegible := by
  intro x hx
  unfold ofChars? at h
  simp only [Option.bind_eq_bind, Option.bind_eq_some_iff] at h
  obtain ⟨date, -, h⟩ := h
  split at h
  · rw [offset_of_ofParts? h] at hx
    cases hx
  · obtain ⟨⟨clock, offset⟩, htime, h⟩ := Option.bind_eq_some_iff.mp h
    rw [offset_of_ofParts? h] at hx
    exact readTime?_offset htime hx

end Timestamp

/-! ### Both ends of the text

A reader that trims its text or rewrites its last letter finds nothing to do on
the text of a timestamp, which begins and ends with a digit. -/

def EndsInDigits (s : List Char) : Prop :=
  ∃ start width n, 0 < width ∧ s = start ++ fixedDigits width n

theorem endsInDigits_fixedDigits {width : Nat} (n : Nat) (hw : 0 < width) :
    EndsInDigits (fixedDigits width n) :=
  ⟨[], width, n, hw, rfl⟩

theorem EndsInDigits.append {s : List Char} (h : EndsInDigits s) (before : List Char) :
    EndsInDigits (before ++ s) := by
  obtain ⟨start, width, n, hw, rfl⟩ := h
  exact ⟨before ++ start, width, n, hw, (List.append_assoc ..).symm⟩

theorem EndsInDigits.isAsciiDigit_of_getLast? {s : List Char} (h : EndsInDigits s) {c : Char}
    (hc : s.getLast? = some c) : isAsciiDigit c = true := by
  obtain ⟨start, width, n, hw, rfl⟩ := h
  have hne : fixedDigits width n ≠ [] := by
    intro hnil
    simpa [hnil, hw.ne] using length_fixedDigits width n
  rw [List.getLast?_append_of_ne_nil _ hne] at hc
  exact isAsciiDigit_of_mem_fixedDigits (List.mem_of_getLast? hc)

namespace Clock

theorem endsInDigits_seconds (second micro : Nat) :
    EndsInDigits (fixedDigits 2 second ++ fractionChars micro) := by
  unfold fractionChars
  split
  · rw [List.append_nil]
    exact endsInDigits_fixedDigits second (by omega)
  · exact ((endsInDigits_fixedDigits micro (by omega)).append ['.']).append _

theorem endsInDigits_chars (c : Clock) : EndsInDigits c.chars := by
  have h := (endsInDigits_seconds c.second c.micro).append
    (fixedDigits 2 c.hour ++ ':' :: fixedDigits 2 c.minute ++ [':'])
  simpa [chars] using h

theorem endsInDigits_offsetChars (c : Clock) : EndsInDigits c.offsetChars := by
  by_cases hwhole : c.second = 0 ∧ c.micro = 0
  · have h := (endsInDigits_fixedDigits c.minute (by omega : 0 < 2)).append
      (fixedDigits 2 c.hour ++ [':'])
    simpa [offsetChars, hwhole] using h
  · have h := c.endsInDigits_chars
    simpa [offsetChars, chars, hwhole] using h

end Clock

namespace Timestamp

theorem endsInDigits_chars (t : Timestamp) : EndsInDigits t.chars := by
  cases ho : t.offset with
  | none =>
      have h := t.clock.endsInDigits_chars.append (t.date.chars ++ ['T'])
      simpa [chars, ho] using h
  | some offset =>
      have h := (Clock.ofMicros offset.natAbs).endsInDigits_offsetChars.append
        (t.date.chars ++ 'T' :: t.clock.chars ++ [if offset < 0 then '-' else '+'])
      simpa [chars, ho, offsetText] using h

theorem isAsciiDigit_of_head?_chars {t : Timestamp} {c : Char}
    (h : t.chars.head? = some c) : isAsciiDigit c = true := by
  have hc : c = digitChar (t.date.year / 10 / 10 / 10) := by
    simpa [chars, Date.chars, fixedDigits, eq_comm] using h
  rw [hc]
  exact isAsciiDigit_digitChar _

end Timestamp

end DecisionCycle
