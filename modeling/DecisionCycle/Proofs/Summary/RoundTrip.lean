import DecisionCycle.Proofs.Text.Trim
import DecisionCycle.Proofs.Timestamp.RoundTrip
import DecisionCycle.Summary

/-!
Summaries and their payloads. A payload written from a summary is always read,
and what is read is `Summary.reread`: the same phase, key outputs and conflicts,
the text with its gap filled, and the time of completion as its own text tells
it, in universal time where it has no offset. A summary that was itself read
from a payload has no gap and no time without an offset, so it comes back
unchanged as soon as its time is legible.
-/

namespace DecisionCycle

namespace Summary

theorem expandZulu_eq_self {s : List Char}
    (hlast : ∀ c, s.getLast? = some c → Text.isAsciiDigit c = true) :
    expandZulu (Text.ofChars s) = Text.ofChars s := by
  have hne (z : Char) (hz : Text.isAsciiDigit z = false) :
      (Text.ofChars s).points.getLast? ≠ some (.char z) := by
    intro h
    obtain ⟨c, hc, heq⟩ := Option.map_eq_some_iff.mp ((List.getLast?_map ..).symm.trans h)
    rw [← CodePoint.char.inj heq, hlast c hc] at hz
    cases hz
  exact if_neg (not_or.mpr ⟨hne 'Z' (by decide), hne 'z' (by decide)⟩)

def reread (s : Summary) : Summary :=
  { s with
    text := s.text.orElse (.str "")
    completedAt := s.completedAt.reread.assumeUtc }

@[simp] theorem phase_reread (s : Summary) : s.reread.phase = s.phase := rfl

theorem isBare_chars (t : Timestamp) : Text.IsBare Text.isBlank t.chars where
  first _ hc := Text.isBlank_of_isAsciiDigit (Timestamp.isAsciiDigit_of_head?_chars hc)
  last _ hc := Text.isBlank_of_isAsciiDigit (t.endsInDigits_chars.isAsciiDigit_of_getLast? hc)

theorem expandZulu_chars (t : Timestamp) :
    expandZulu (Text.ofChars t.chars) = Text.ofChars t.chars :=
  expandZulu_eq_self fun _ hc => t.endsInDigits_chars.isAsciiDigit_of_getLast? hc

theorem readCompletedAt_of_isPadded (now : Timestamp) {core s : List Char} {t : Timestamp}
    (h : Text.IsPadded Text.isBlank core s) (hcore : Text.IsBare Text.isBlank core)
    (hread : Timestamp.ofText? (expandZulu (Text.ofChars core)) = some t) :
    readCompletedAt now (.str (Text.ofChars s)) = .ok t.assumeUtc := by
  have htrim : Text.trim s = core := Text.trim_of_isPadded h hcore
  have hgiven : (Value.str (Text.ofChars s)).isGiven = true := by
    cases s with
    | cons c s => rfl
    | nil =>
        have hempty : Timestamp.ofText? (expandZulu (Text.ofChars (Text.trim []))) = none := by
          decide
        rw [← htrim, hempty] at hread
        cases hread
  simp only [readCompletedAt, hgiven, if_true, Value.written_str, bind, Except.bind]
  rw [Text.trimmed_ofChars, htrim, hread]

theorem readCompletedAt_chars (now t : Timestamp) {s : List Char}
    (h : Text.IsPadded Text.isBlank t.chars s) :
    readCompletedAt now (.str (Text.ofChars s)) = .ok t.reread.assumeUtc :=
  readCompletedAt_of_isPadded now h (isBare_chars t)
    (by rw [expandZulu_chars, Timestamp.ofText?_ofChars, Timestamp.ofChars?_chars])

theorem readCompletedAt_text (now t : Timestamp) :
    readCompletedAt now (.str t.text) = .ok t.reread.assumeUtc := by
  have htext : (t.text : Text) = Text.ofChars t.chars := by
    simp [Timestamp.text, Text.ofString]
  rw [htext]
  exact readCompletedAt_chars now t (Text.isPadded_self _ _)

theorem readList_list (vs : List Value) : readList (.list vs) = .ok vs := by
  cases vs <;> rfl

theorem ofPayload_toPayload (o : Occasion) (s : Summary) :
    ofPayload o s.toPayload = .ok s.reread := by
  simp [ofPayload, toPayload, reread, Value.field, Value.fieldOr, Value.require,
    Value.lookup?, readCompletedAt_text, readList_list, bind, Except.bind, pure, Except.pure]

end Summary

/-- No timestamp stands for the time of completion in the payload of a summary,
unless it is a legible one. A text may always stand there. -/
def Value.HasLegibleTime (v : Value) : Prop :=
  ∀ t, v.field "completed_at" = .ok (.time t) → t.IsLegible

namespace Summary

structure HasOthers (v : Value) (s : Summary) : Prop where
  phase : ∃ name, v.require "phase" = .ok name ∧ name.toPhase = .ok s.phase
  text : ∃ text, v.field "summary" = .ok text ∧ s.text = text.orElse (.str "")
  keyOutputs : ∃ list, v.field "key_outputs" = .ok list ∧ readList list = .ok s.keyOutputs
  conflicts : ∃ list, v.field "conflicts" = .ok list ∧ readList list = .ok s.conflicts

theorem ofPayload_eq_ok_iff {o : Occasion} {v : Value} {s : Summary} :
    ofPayload o v = .ok s ↔
      (∃ time, v.field "completed_at" = .ok time ∧
        readCompletedAt o.now time = .ok s.completedAt) ∧ HasOthers v s := by
  constructor
  · intro h
    unfold ofPayload at h
    obtain ⟨time, htime, h⟩ := bind_eq_ok.mp h
    obtain ⟨completedAt, hread, h⟩ := bind_eq_ok.mp h
    obtain ⟨name, hname, h⟩ := bind_eq_ok.mp h
    obtain ⟨phase, hphase, h⟩ := bind_eq_ok.mp h
    obtain ⟨text, htext, h⟩ := bind_eq_ok.mp h
    obtain ⟨rawOutputs, hrawOutputs, h⟩ := bind_eq_ok.mp h
    obtain ⟨keyOutputs, houtputs, h⟩ := bind_eq_ok.mp h
    obtain ⟨rawConflicts, hrawConflicts, h⟩ := bind_eq_ok.mp h
    obtain ⟨conflicts, hconflicts, h⟩ := bind_eq_ok.mp h
    cases h
    exact ⟨⟨time, htime, hread⟩, ⟨name, hname, hphase⟩, ⟨text, htext, rfl⟩,
      ⟨rawOutputs, hrawOutputs, houtputs⟩, ⟨rawConflicts, hrawConflicts, hconflicts⟩⟩
  · rintro ⟨⟨time, htime, hread⟩, ⟨name, hname, hphase⟩, ⟨text, htext, rest⟩,
      ⟨rawOutputs, hrawOutputs, houtputs⟩, ⟨rawConflicts, hrawConflicts, hconflicts⟩⟩
    simp only [ofPayload, htime, hread, hname, hphase, htext, hrawOutputs, houtputs,
      hrawConflicts, hconflicts, ok_bind, ← rest]
    rfl

/-- Where a time of completion comes from: it stands there as a timestamp, a text
writes it, or it is the present. -/
theorem readCompletedAt_eq_ok {now t : Timestamp} {v : Value}
    (h : readCompletedAt now v = .ok t) :
    ∃ u : Timestamp, t = u.assumeUtc ∧
      (v = .time u ∨ (∃ s, Timestamp.ofChars? s = some u) ∨ u = now) := by
  unfold readCompletedAt at h
  split at h
  case h_1 u => exact ⟨u, (Except.ok.inj h).symm, .inl rfl⟩
  case h_2 =>
    split at h
    case isTrue =>
      obtain ⟨text, -, h⟩ := bind_eq_ok.mp h
      split at h
      case h_1 u hu =>
        obtain ⟨s, -, hs⟩ := Option.bind_eq_some_iff.mp hu
        exact ⟨u, (Except.ok.inj h).symm, .inr (.inl ⟨_, hs⟩)⟩
      case h_2 => cases h
    case isFalse => exact ⟨now, (Except.ok.inj h).symm, .inr (.inr rfl)⟩

theorem isLegible_of_ofPayload {o : Occasion} {v : Value} {s : Summary}
    (h : ofPayload o v = .ok s) (hv : v.HasLegibleTime) : s.completedAt.IsLegible := by
  obtain ⟨⟨time, hfield, hread⟩, -⟩ := ofPayload_eq_ok_iff.mp h
  obtain ⟨u, hu, rfl | ⟨text, htext⟩ | rfl⟩ := readCompletedAt_eq_ok hread
  · exact hu ▸ (hv u hfield).assumeUtc
  · exact hu ▸ (Timestamp.isLegible_of_ofChars? htext).assumeUtc
  · exact hu ▸ (Timestamp.isLegible_of_offset_eq_zero o.isUniversal).assumeUtc

theorem isSome_offset_of_ofPayload {o : Occasion} {v : Value} {s : Summary}
    (h : ofPayload o v = .ok s) : s.completedAt.offset.isSome = true := by
  obtain ⟨⟨time, -, hread⟩, -⟩ := ofPayload_eq_ok_iff.mp h
  obtain ⟨u, hu, -⟩ := readCompletedAt_eq_ok hread
  rw [hu]
  rfl

/-- Of a summary from a payload only a time that is not legible changes when it
is written and read again. -/
theorem reread_of_ofPayload {o : Occasion} {v : Value} {s : Summary}
    (h : ofPayload o v = .ok s) : s.reread = { s with completedAt := s.completedAt.reread } := by
  obtain ⟨text, -, htext⟩ := (ofPayload_eq_ok_iff.mp h).2.text
  have hsome : s.completedAt.reread.offset.isSome := by
    simpa [Timestamp.reread] using isSome_offset_of_ofPayload h
  simp [reread, htext, Timestamp.assumeUtc_eq_self hsome]

theorem reread_eq_self_iff_of_ofPayload {o : Occasion} {v : Value} {s : Summary}
    (h : ofPayload o v = .ok s) : s.reread = s ↔ s.completedAt.IsLegible := by
  rw [reread_of_ofPayload h, ← Timestamp.reread_eq_self_iff]
  exact ⟨congrArg completedAt, fun htime => by rw [htime]⟩

structure ReadsBack (v : Value) (s : Summary) : Prop where
  hasOffset : s.completedAt.offset.isSome
  keyOutputs : s.toPayload.field "key_outputs" = .ok (.list s.keyOutputs)
  conflicts : s.toPayload.field "conflicts" = .ok (.list s.conflicts)
  again (o : Occasion) :
    ofPayload o s.toPayload = .ok { s with completedAt := s.completedAt.reread }
  unchanged_iff (o : Occasion) : ofPayload o s.toPayload = .ok s ↔ s.completedAt.IsLegible
  unchanged (o : Occasion) : v.HasLegibleTime → ofPayload o s.toPayload = .ok s
  isEmpty (o : Occasion) {s' : Summary} :
    ofPayload o s.toPayload = .ok s' → s'.isEmpty = s.isEmpty

/-- **Reading, writing and reading again.** Whatever shape the fields of a payload have, a
summary that is read from it has a time with an offset and lists for what should be lists,
and is read from its own payload as it was. Only if a timestamp with an offset that its
text does not tell stood there is that offset lost, and nothing else. -/
theorem ofPayload_readsBack {o : Occasion} {v : Value} {s : Summary}
    (h : ofPayload o v = .ok s) : ReadsBack v s where
  hasOffset := isSome_offset_of_ofPayload h
  keyOutputs := by simp [toPayload, Value.field, Value.fieldOr, Value.lookup?]
  conflicts := by simp [toPayload, Value.field, Value.fieldOr, Value.lookup?]
  again o' := by rw [ofPayload_toPayload, reread_of_ofPayload h]
  unchanged_iff o' := by
    rw [ofPayload_toPayload, Except.ok.injEq]
    exact reread_eq_self_iff_of_ofPayload h
  unchanged o' hv := by
    have hlegible := isLegible_of_ofPayload h hv
    rw [ofPayload_toPayload, (reread_eq_self_iff_of_ofPayload h).mpr hlegible]
  isEmpty o' s' hs' := by
    rw [ofPayload_toPayload, reread_of_ofPayload h] at hs'
    cases hs'
    rfl

/-- A text and a mapping in the place of lists, a number in the place of a text, and a time
by the week, half a second past the hour and some seconds off a whole zone. -/
theorem ofPayload_readsBack_byWeek :
    let o : Occasion := { now := .millennium, freshId := "cycle" }
    let v : Value := .dict
      [(.str "phase", .str " TRADEOFFS "), (.str "summary", .int 0),
        (.str "key_outputs", .str "ab"), (.str "conflicts", .dict [(.str "x", .null)]),
        (.str "completed_at", .str "2026-W03-4 10:00:00,5-05:30:15")]
    v.HasLegibleTime ∧ ∃ s, ofPayload o v = .ok s ∧
      s.completedAt.text = "2026-01-15T10:00:00.500000-05:30:15" ∧ ReadsBack v s := by
  intro o v
  have hlegible : v.HasLegibleTime := by
    simp [v, Value.HasLegibleTime, Value.field, Value.fieldOr, Value.lookup?]
  have htime : (ofPayload o v).toOption.map (fun s => s.completedAt.text) =
      some "2026-01-15T10:00:00.500000-05:30:15" := by decide +kernel
  cases h : ofPayload o v with
  | error fault =>
      rw [h] at htime
      cases htime
  | ok s =>
      rw [h] at htime
      exact ⟨hlegible, s, rfl, Option.some.inj htime, ofPayload_readsBack h⟩

/-- A timestamp four microseconds east of universal time comes back in universal time. -/
theorem ofPayload_losesOffset :
    let o : Occasion := { now := .millennium, freshId := "cycle" }
    let time (offset : Option Int) (h : (offset.getD 0).natAbs < dayMicros) : Timestamp :=
      ⟨⟨2026, 1, 15⟩, ⟨10, 0, 0, 0⟩, offset, by decide, by decide, h⟩
    let east := time (some 4) (by decide)
    let v : Value := .dict [(.str "phase", .str "objectives"), (.str "completed_at", .time east)]
    let s : Summary := ⟨.objectives, .str "", [], [], east⟩
    ofPayload o v = .ok s ∧
      ofPayload o s.toPayload = .ok { s with completedAt := time (some 0) (by decide) } ∧
      ofPayload o s.toPayload ≠ .ok s := by
  intro o time east v s
  have hothers : HasOthers v s :=
    ⟨⟨.str "objectives", rfl, Value.toPhase_key .objectives⟩, ⟨.null, rfl, rfl⟩, ⟨.null, rfl, rfl⟩,
      ⟨.null, rfl, rfl⟩⟩
  have hread : ofPayload o v = .ok s := ofPayload_eq_ok_iff.mpr ⟨⟨.time east, rfl, rfl⟩, hothers⟩
  have hback : ofPayload o s.toPayload = .ok s.reread := ofPayload_toPayload o s
  refine ⟨hread, hback, fun h => ?_⟩
  have htime := congrArg completedAt (Except.ok.inj (hback.symm.trans h))
  exact absurd htime (by decide)

end Summary

end DecisionCycle
