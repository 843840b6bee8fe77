import DecisionCycle.Proofs.Summary.RoundTrip

/-!
The ways to give a time of completion. A time without an offset may be given as it is, as
its text, or as its text with a mark of universal time behind it, and is read as that time
in universal time. A text with an offset is read as the time that it shows, at that offset.
Blanks around a text make no difference. There is one exception, which comes from the
reader of texts: an offset of less than a second is none for it, and so the time that the
text shows is taken as universal time.
-/

namespace DecisionCycle

/-- A value stands for a time of completion: wherever it is given for one, a summary is
read as soon as all else of it is there, and has that time. -/
def Value.StandsForTime (w : Value) (t : Timestamp) : Prop :=
  ∀ (o : Occasion) (v : Value) (s : Summary), v.field "completed_at" = .ok w →
    (Summary.ofPayload o v = .ok s ↔ s.completedAt = t ∧ Summary.HasOthers v s)

namespace Summary

theorem standsForTime_of_readCompletedAt {w : Value} {t : Timestamp}
    (h : ∀ now, readCompletedAt now w = .ok t) : w.StandsForTime t := by
  intro o v s hfield
  rw [ofPayload_eq_ok_iff]
  refine and_congr_left fun _ => ?_
  constructor
  · rintro ⟨time, htime, hread⟩
    cases hfield.symm.trans htime
    exact Except.ok.inj (hread.symm.trans (h o.now))
  · rintro rfl
    exact ⟨w, hfield, h o.now⟩

theorem expandZulu_append_zulu {z : Char} (hz : z = 'Z' ∨ z = 'z') (s : List Char) :
    expandZulu (Text.ofChars (s ++ [z])) = Text.ofChars (s ++ "+00:00".toList) := by
  rcases hz with rfl | rfl <;> simp [expandZulu, Text.ofChars, Text.ofString] <;> rfl

end Summary

namespace Timestamp

open Text

def atOffset (t : Timestamp) (offset : Int) (h : offset.natAbs < dayMicros) : Timestamp :=
  ⟨t.date, t.clock, some offset, t.valid.1, t.valid.2.1, h⟩

variable {t : Timestamp} {s : List Char}

theorem chars_assumeUtc (h : t.offset = none) :
    t.assumeUtc.chars = t.chars ++ "+00:00".toList := by
  have hutc : offsetText 0 = "+00:00".toList := by decide
  simp [chars, assumeUtc, h, hutc]

theorem standsForTime_time (t : Timestamp) : (Value.time t).StandsForTime t.assumeUtc :=
  Summary.standsForTime_of_readCompletedAt fun _ => rfl

theorem standsForTime_chars (h : IsPadded isBlank t.chars s) :
    (Value.str (ofChars s)).StandsForTime t.reread.assumeUtc :=
  Summary.standsForTime_of_readCompletedAt fun now => Summary.readCompletedAt_chars now t h

theorem standsForTime_zulu (ht : t.offset = none) {z : Char} (hz : z = 'Z' ∨ z = 'z')
    (h : IsPadded isBlank (t.chars ++ [z]) s) :
    (Value.str (ofChars s)).StandsForTime t.assumeUtc := by
  have hbare : IsBare isBlank (t.chars ++ [z]) := by
    refine ⟨fun c hc => (Summary.isBare_chars t).first c ?_, fun c hc => ?_⟩
    · rwa [List.head?_append_of_ne_nil _ (by simp [chars])] at hc
    · obtain rfl : z = c := by simpa using hc
      rcases hz with rfl | rfl <;> decide
  have hread : ofText? (Summary.expandZulu (ofChars (t.chars ++ [z]))) = some t.assumeUtc := by
    have hlegible : t.assumeUtc.IsLegible := isLegible_of_offset_eq_zero (by simp [assumeUtc, ht])
    rw [Summary.expandZulu_append_zulu hz, ← chars_assumeUtc ht, ofText?_ofChars, ofChars?_chars,
      reread_eq_self hlegible]
  exact Summary.standsForTime_of_readCompletedAt fun now =>
    Summary.readCompletedAt_of_isPadded (t := t.assumeUtc) now h hbare hread

/-- How a time without an offset may be given for a time of completion, and what its texts
at an offset stand for. -/
structure ReadsInEverySpelling (t : Timestamp) : Prop where
  itself : (Value.time t).StandsForTime t.assumeUtc
  marked {mark : String} {s : List Char} : mark ∈ ["", "Z", "z", "+00:00"] →
    IsPadded isBlank (t.text ++ mark).toList s →
      (Value.str (ofChars s)).StandsForTime t.assumeUtc
  zoned {offset : Int} {s : List Char} (h : offset.natAbs < dayMicros) :
    offset = 0 ∨ 1000000 ≤ offset.natAbs → IsPadded isBlank (t.atOffset offset h).text.toList s →
      (Value.str (ofChars s)).StandsForTime (t.atOffset offset h)
  nearlyUtc {offset : Int} {s : List Char} (h : offset.natAbs < dayMicros) :
    offset.natAbs < 1000000 → IsPadded isBlank (t.atOffset offset h).text.toList s →
      (Value.str (ofChars s)).StandsForTime t.assumeUtc

/-- **Every spelling of a time.** A time without an offset is read as that time in universal
time from itself, from its text and from its text with a mark of universal time; and its
text at an offset is read as the time at that offset, unless that is less than a second. -/
theorem readsInEverySpelling (ht : t.offset = none) : t.ReadsInEverySpelling where
  itself := standsForTime_time t
  marked {mark s} hmark h := by
    simp only [text, String.toList_append, String.toList_ofList] at h
    simp only [List.mem_cons, List.not_mem_nil, or_false] at hmark
    rcases hmark with rfl | rfl | rfl | rfl
    · have hsame : t.reread = t := reread_eq_self (by intro offset; simp [ht])
      rw [← hsame]
      exact standsForTime_chars (by simpa using h)
    · exact standsForTime_zulu ht (.inl rfl) h
    · exact standsForTime_zulu ht (.inr rfl) h
    · rw [← chars_assumeUtc ht] at h
      have hsame : t.assumeUtc.reread.assumeUtc = t.assumeUtc := by
        simp [reread, assumeUtc, ht, rereadOffset]
      exact hsame ▸ standsForTime_chars h
  zoned {offset s} hday hlegible h := by
    rw [text, String.toList_ofList] at h
    have hsame : (t.atOffset offset hday).reread = t.atOffset offset hday :=
      reread_eq_self (by rintro x ⟨rfl⟩; exact hlegible)
    have hstands := standsForTime_chars h
    rwa [hsame] at hstands
  nearlyUtc {offset s} hday hshort h := by
    rw [text, String.toList_ofList] at h
    have hlost : (t.atOffset offset hday).reread.assumeUtc = t.assumeUtc := by
      simp [reread, atOffset, assumeUtc, ht, rereadOffset, hshort]
    exact hlost ▸ standsForTime_chars h

theorem readsInEverySpelling_first :
    let t : Timestamp := ⟨⟨1, 1, 1⟩, ⟨0, 0, 0, 1⟩, none, by decide⟩
    let o : Occasion := { now := .millennium, freshId := "cycle" }
    let v : Value := .dict
      [(.str "phase", .str "objectives"),
        (.str "completed_at", .str "\t0001-01-01T00:00:00.000001z\u2028")]
    t.offset = none ∧ t.ReadsInEverySpelling ∧
      ∃ s, Summary.ofPayload o v = .ok s ∧ s.completedAt = t.assumeUtc := by
  intro t o v
  have hread := readsInEverySpelling (t := t) rfl
  have hpadded : IsPadded isBlank (t.text ++ "z").toList
      "\t0001-01-01T00:00:00.000001z\u2028".toList :=
    ⟨['\t'], ['\u2028'], by decide +kernel, by simp [isBlank], by simp [isBlank]⟩
  let s : Summary := ⟨.objectives, .str "", [], [], t.assumeUtc⟩
  have hothers : Summary.HasOthers v s :=
    ⟨⟨.str "objectives", rfl, Value.toPhase_key .objectives⟩, ⟨.null, rfl, rfl⟩, ⟨.null, rfl, rfl⟩,
      ⟨.null, rfl, rfl⟩⟩
  exact ⟨rfl, hread, s, (hread.marked (by simp) hpadded o v s rfl).mpr ⟨rfl, hothers⟩, rfl⟩

/-- Four microseconds east of universal time are lost on the way through the text. -/
theorem not_standsForTime_fourMicros :
    let t : Timestamp := ⟨⟨2026, 1, 15⟩, ⟨10, 0, 0, 0⟩, none, by decide⟩
    let east := t.atOffset 4 (by decide)
    east.text = "2026-01-15T10:00:00+00:00:00.000004" ∧
      ¬(Value.str "2026-01-15T10:00:00+00:00:00.000004").StandsForTime east := by
  intro t east
  let o : Occasion := { now := .millennium, freshId := "cycle" }
  let v : Value := .dict
    [(.str "phase", .str "objectives"),
      (.str "completed_at", .str "2026-01-15T10:00:00+00:00:00.000004")]
  refine ⟨by decide +kernel, fun hstands => ?_⟩
  have hread : (Summary.ofPayload o v).toOption.map Summary.completedAt = some t.assumeUtc := by
    decide +kernel
  cases h : Summary.ofPayload o v with
  | error fault =>
      rw [h] at hread
      cases hread
  | ok s =>
      rw [h] at hread
      have heast : s.completedAt = east := ((hstands o v s rfl).mp h).1
      have hutc : s.completedAt = t.assumeUtc := Option.some.inj hread
      exact absurd (heast.symm.trans hutc) (by decide)

end Timestamp

end DecisionCycle
