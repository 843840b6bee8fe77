import DecisionCycle.Proofs.Cycle.Restore
import DecisionCycle.Proofs.Payload

/-!
What a payload has to store so that a cycle is restored from it, and what the cycle has
of it then. Keys are read leniently, and several of them may name one phase. Each entry
has to be readable, but only the last one for a phase is restored, and only that one has
to be the summary of a phase that is worked on. All that does not count as given is
filled in: the first phase, no entries, a fresh identifier. Any other payload is refused,
with one exception: the refusal shows the key of the first entry that cannot be read, and
where this key cannot be written out there is no refusal but that fault.
-/

namespace DecisionCycle.Cycle

variable {o : Occasion} {fields entries : List (Value × Value)}

/-! ### What is stored -/

def NamesCurrent (fields : List (Value × Value)) (p : Phase) : Prop :=
  ∃ raw, (Value.dict fields).field "current_phase" = .ok raw ∧
    if raw.isGiven then raw.toPhase = .ok p else p = .issueRaising

/-- The entries for completed phases in a payload: those of a mapping, or else none. -/
def HasEntries (fields entries : List (Value × Value)) : Prop :=
  ∃ stored, (Value.dict fields).field "completed" = .ok stored ∧
    (stored = .dict entries ∨ stored.isGiven = false ∧ entries = [])

theorem storedPhase_eq_ok {p : Phase} :
    storedPhase (.dict fields) = .ok p ↔ NamesCurrent fields p := by
  rw [storedPhase, NamesCurrent, Value.field_dict]
  generalize (Value.lookup? "current_phase" fields).getD .null = raw
  change (readCurrent raw).mapError refuse = .ok p ↔ _
  simp only [mapError_eq_ok, readCurrent, Value.orElse, Except.ok.injEq, exists_eq_left']
  by_cases hgiven : raw.isGiven = true
  · rw [if_pos hgiven, if_pos hgiven]
  · rw [if_neg hgiven, if_neg hgiven, Value.toPhase_key, Except.ok.injEq, eq_comm]

theorem HasEntries.storedEntries (h : HasEntries fields entries) :
    storedEntries (.dict fields) = .ok entries := by
  obtain ⟨stored, hstored, rfl | ⟨hgiven, rfl⟩⟩ := h
  · rw [Cycle.storedEntries, hstored]
    exact Value.entries_orElse entries
  · rw [Cycle.storedEntries, hstored]
    change (stored.orElse (.dict [])).entries = _
    rw [Value.orElse, if_neg (by simp [hgiven])]
    rfl

/-! ### The last entry for a phase -/

/-- The entry is the last one whose key names the phase. -/
def IsLastFor (entries : List (Value × Value)) (p : Phase) (e : Value × Value) : Prop :=
  e.1.toPhase = .ok p ∧ ∃ before after, entries = before ++ e :: after ∧
    ∀ f ∈ after, f.1.toPhase ≠ .ok p

theorem IsLastFor.mem {p : Phase} {e : Value × Value} (h : IsLastFor entries p e) :
    e ∈ entries := by
  obtain ⟨-, before, after, rfl, -⟩ := h
  simp

theorem not_isLastFor_nil (p : Phase) (e : Value × Value) : ¬IsLastFor [] p e :=
  fun h => List.not_mem_nil h.mem

theorem isLastFor_cons {p : Phase} {first e : Value × Value} :
    IsLastFor (first :: entries) p e ↔
      IsLastFor entries p e ∨
        e = first ∧ first.1.toPhase = .ok p ∧ ∀ f ∈ entries, f.1.toPhase ≠ .ok p := by
  constructor
  · rintro ⟨he, before, after, hsplit, hafter⟩
    cases before with
    | nil =>
        cases hsplit
        exact .inr ⟨rfl, he, hafter⟩
    | cons b before =>
        cases hsplit
        exact .inl ⟨he, before, after, rfl, hafter⟩
  · rintro (⟨he, before, after, rfl, hafter⟩ | ⟨rfl, he, hafter⟩)
    · exact ⟨he, first :: before, after, rfl, hafter⟩
    · exact ⟨he, [], entries, rfl, hafter⟩

theorem exists_isLastFor {p : Phase} {e : Value × Value} (he : e ∈ entries)
    (hp : e.1.toPhase = .ok p) : ∃ last, IsLastFor entries p last := by
  induction entries generalizing e with
  | nil => cases he
  | cons first entries ih =>
      by_cases hlater : ∃ f ∈ entries, f.1.toPhase = .ok p
      · obtain ⟨f, hf, hfp⟩ := hlater
        obtain ⟨last, hlast⟩ := ih hf hfp
        exact ⟨last, isLastFor_cons.mpr (.inl hlast)⟩
      · push Not at hlater
        rcases List.mem_cons.mp he with rfl | he
        · exact ⟨e, isLastFor_cons.mpr (.inr ⟨rfl, hp, hlater⟩)⟩
        · exact absurd hp (hlater e he)

theorem get?_foldl_put {rows : List (Phase × Summary)}
    (h : List.Forall₂ (Stores o) entries rows) (t : Table Phase Summary) {p : Phase}
    {s : Summary} :
    (rows.foldl (fun t row => t.put row.1 row.2) t).get? p = some s ↔
      (∃ e, IsLastFor entries p e ∧ Summary.ofPayload o e.2 = .ok s) ∨
        (∀ e ∈ entries, e.1.toPhase ≠ .ok p) ∧ t.get? p = some s := by
  -- the table is any, since an entry is read into what the entries before it have left
  induction h generalizing t with
  | nil => simp [not_isLastFor_nil]
  | @cons e row entries rows hstores _ ih =>
      obtain ⟨hkey, hsummary⟩ := hstores
      rw [List.foldl_cons, ih, Table.get?_put]
      simp only [isLastFor_cons, List.forall_mem_cons]
      by_cases hp : p = row.1
      · subst hp
        simp only [hkey, if_true]
        constructor
        · rintro (⟨f, hf, hs⟩ | ⟨hlater, hs⟩)
          · exact .inl ⟨f, .inl hf, hs⟩
          · refine .inl ⟨e, .inr ⟨rfl, trivial, hlater⟩, ?_⟩
            rw [hsummary, Option.some.inj hs]
        · rintro (⟨f, hf | ⟨rfl, -, hlater⟩, hs⟩ | ⟨⟨hne, -⟩, -⟩)
          · exact .inl ⟨f, hf, hs⟩
          · rw [hsummary] at hs
            exact .inr ⟨hlater, congrArg some (Except.ok.inj hs)⟩
          · exact absurd rfl hne
      · have hne : e.1.toPhase ≠ .ok p := fun h => hp (Except.ok.inj (h.symm.trans hkey))
        simp [hp, hne]

theorem get?_ofList_iff {rows : List (Phase × Summary)}
    (h : List.Forall₂ (Stores o) entries rows) {p : Phase} {s : Summary} :
    (Table.ofList rows).get? p = some s ↔
      ∃ e, IsLastFor entries p e ∧ Summary.ofPayload o e.2 = .ok s := by
  rw [Table.ofList, get?_foldl_put h, Table.get?_empty]
  simp

/-! ### What is accepted -/

structure Acceptable (o : Occasion) (fields entries : List (Value × Value)) : Prop where
  current : ∃ p, NamesCurrent fields p ∧ p.IsWorking
  keys : ∀ e ∈ entries, ∃ p, e.1.toPhase = .ok p
  summaries : ∀ e ∈ entries, ∃ s, Summary.ofPayload o e.2 = .ok s
  filed : ∀ p, (∃ e ∈ entries, e.1.toPhase = .ok p) →
    p.IsWorking ∧ ∃ last s, IsLastFor entries p last ∧ Summary.ofPayload o last.2 = .ok s ∧
      s.phase = p

structure RestoredAs (o : Occasion) (fields entries : List (Value × Value)) (c : Cycle) :
    Prop where
  current : NamesCurrent fields c.current
  completed_iff {p : Phase} {s : Summary} :
    c.completed p = some s ↔ ∃ e, IsLastFor entries p e ∧ Summary.ofPayload o e.2 = .ok s
  id : ∃ raw, (Value.dict fields).field "cycle_id" = .ok raw ∧
    c.id = if raw.isGiven then raw else .str o.freshId

theorem exists_rows_iff :
    (∃ rows, List.Forall₂ (Stores o) entries rows) ↔
      (∀ e ∈ entries, ∃ p, e.1.toPhase = .ok p) ∧
        ∀ e ∈ entries, ∃ s, Summary.ofPayload o e.2 = .ok s := by
  rw [exists_forall₂_iff, ← forall₂_and]
  refine forall₂_congr fun e _ => ?_
  constructor
  · rintro ⟨⟨p, s⟩, hp, hs⟩
    exact ⟨⟨p, hp⟩, s, hs⟩
  · rintro ⟨⟨p, hp⟩, s, hs⟩
    exact ⟨(p, s), hp, hs⟩

theorem RestoredAs.of_ofPayload (hentries : HasEntries fields entries) {c : Cycle}
    (h : ofPayload o (.dict fields) = .ok c) : RestoredAs o fields entries c := by
  rw [ofPayload_eq, hentries.storedEntries] at h
  obtain ⟨current, hcurrent, h⟩ := bind_eq_ok.mp h
  obtain ⟨stored, hstored, h⟩ := bind_eq_ok.mp h
  obtain rfl : entries = stored := Except.ok.inj hstored
  obtain ⟨completed, hread, h⟩ := bind_eq_ok.mp h
  obtain ⟨id, hid, hcreate⟩ := bind_eq_ok.mp h
  obtain ⟨rows, hrows, rfl⟩ := readEntries_eq_ok.mp hread
  obtain ⟨-, -, rfl⟩ := create_eq_ok.mp (mapError_eq_ok.mp hcreate)
  exact
    { current := storedPhase_eq_ok.mp hcurrent
      completed_iff := get?_ofList_iff hrows
      id := ⟨id, mapError_eq_ok.mp hid, rfl⟩ }

theorem Acceptable.of_ofPayload (hentries : HasEntries fields entries) {c : Cycle}
    (h : ofPayload o (.dict fields) = .ok c) : Acceptable o fields entries := by
  have hsound := sound_of_ofPayload h
  have hrestored := RestoredAs.of_ofPayload hentries h
  obtain ⟨stored, rows, hstored, hrows, -⟩ := completed_of_ofPayload h
  obtain rfl : entries = stored := Except.ok.inj (hentries.storedEntries.symm.trans hstored)
  obtain ⟨hkeys, hsummaries⟩ := exists_rows_iff.mp ⟨rows, hrows⟩
  refine ⟨⟨c.current, hrestored.current, hsound.working⟩, hkeys, hsummaries, ?_⟩
  rintro p ⟨e, he, hp⟩
  obtain ⟨last, hlast⟩ := exists_isLastFor he hp
  obtain ⟨s, hs⟩ := hsummaries last hlast.mem
  -- the last entry for `p` is in the restored cycle, which has every summary under its phase
  obtain ⟨hworking, hphase⟩ := hsound.filed (hrestored.completed_iff.mpr ⟨last, hlast, hs⟩)
  exact ⟨hworking, last, s, hlast, hs, hphase⟩

theorem Acceptable.exists_ofPayload (hentries : HasEntries fields entries)
    (h : Acceptable o fields entries) : ∃ c, ofPayload o (.dict fields) = .ok c := by
  obtain ⟨p, hp, hworking⟩ := h.current
  obtain ⟨rows, hrows⟩ := exists_rows_iff.mpr ⟨h.keys, h.summaries⟩
  have hread : readEntries o Table.empty entries = .ok (Table.ofList rows) :=
    readEntries_eq_ok.mpr ⟨rows, hrows, rfl⟩
  have hkeys : (Table.ofList rows).keys.Nodup := by
    rw [Table.keys_ofList]
    exact nodup_eraseDups _
  have hfiled : ∀ row ∈ (Table.ofList rows).rows, row.1.IsWorking ∧ row.2.phase = row.1 := by
    intro row hrow
    have hget : (Table.ofList rows).get? row.1 = some row.2 :=
      (Table.get?_eq_some_iff hkeys).mpr hrow
    obtain ⟨e, he, -⟩ := (get?_ofList_iff hrows).mp hget
    obtain ⟨hworking, last, s, hlast, hs, hphase⟩ := h.filed row.1 ⟨e, he.mem, he.1⟩
    -- the row is that of the last entry for its phase
    have hsame := (get?_ofList_iff hrows).mpr ⟨last, hlast, hs⟩
    rw [hget] at hsame
    exact ⟨hworking, Option.some.inj hsame ▸ hphase⟩
  rw [ofPayload_of_stored (storedPhase_eq_ok.mpr hp) hentries.storedEntries, hread]
  exact ⟨_, mapError_eq_ok.mpr (create_eq_ok.mpr ⟨hworking, hfiled, rfl⟩)⟩

/-- The first entry that cannot be read stands under a key that cannot be written out. -/
def HasLongKey (o : Occasion) (entries : List (Value × Value)) : Prop :=
  ∃ before key raw after, entries = before ++ (key, raw) :: after ∧
    (∀ e ∈ before, ∃ row, Stores o e row) ∧ key.isWritable = false

theorem breaksOff_iff (hentries : HasEntries fields entries) {fault : PayloadFault} :
    BreaksOff o (.dict fields) fault ↔
      fault = .tooManyDigits ∧ (∃ p, NamesCurrent fields p) ∧ HasLongKey o entries := by
  constructor
  · rintro (⟨hphase, hstored, hgiven, hmapping⟩ | ⟨hphase, hstored, hbefore, hkey⟩)
    · -- there are entries, so what is stored is a mapping or does not count
      have herror := (storedEntries_eq_error hstored).mpr ⟨rfl, hgiven, hmapping⟩
      rw [hentries.storedEntries] at herror
      cases herror
    · have hsplit := Except.ok.inj (hentries.storedEntries.symm.trans hstored)
      exact ⟨rfl, ⟨_, storedPhase_eq_ok.mp hphase⟩, _, _, _, _, hsplit, hbefore, hkey⟩
  · rintro ⟨rfl, ⟨p, hp⟩, before, key, raw, after, rfl, hbefore, hkey⟩
    exact .longKey (storedPhase_eq_ok.mpr hp) hentries.storedEntries hbefore hkey

/-- What becomes of a payload: it is restored exactly if it is acceptable. Any other one is
refused as a state that no cycle has, but for those that are found wrong at a key that
cannot be written out. -/
structure RestoresExactly (o : Occasion) (fields entries : List (Value × Value)) : Prop where
  accepts_iff : (∃ c, ofPayload o (.dict fields) = .ok c) ↔ Acceptable o fields entries
  restored {c : Cycle} : ofPayload o (.dict fields) = .ok c → RestoredAs o fields entries c
  refuses_iff : (∃ cause, ofPayload o (.dict fields) = .error (refuse cause)) ↔
    ¬Acceptable o fields entries ∧ ¬((∃ p, NamesCurrent fields p) ∧ HasLongKey o entries)
  breaksOff_iff : ofPayload o (.dict fields) = .error (.payload .tooManyDigits) ↔
    (∃ p, NamesCurrent fields p) ∧ HasLongKey o entries

/-- **What is accepted, and as what.** A mapping whose completed phases are a mapping or
left out is restored exactly if its current phase is one that is worked on, all keys name
phases, all summaries can be read, and the last entry for each phase is the summary of
that phase, which is worked on as well. Any other is refused, exactly if the first entry
that cannot be read has no key that cannot be written out. -/
theorem ofPayload_restoresExactly (o : Occasion) {fields entries : List (Value × Value)}
    (hentries : HasEntries fields entries) : RestoresExactly o fields entries := by
  have haccepts : (∃ c, ofPayload o (.dict fields) = .ok c) ↔ Acceptable o fields entries :=
    ⟨fun ⟨_, h⟩ => .of_ofPayload hentries h, fun h => h.exists_ofPayload hentries⟩
  have hbreaks (h : (∃ p, NamesCurrent fields p) ∧ HasLongKey o entries) :
      ofPayload o (.dict fields) = .error (.payload .tooManyDigits) :=
    ofPayload_of_breaksOff ((breaksOff_iff hentries).mpr ⟨rfl, h⟩)
  have hcases := restoresOrRefuses_or_breaksOff o fields
  constructor
  case accepts_iff => exact haccepts
  case restored => exact fun h => .of_ofPayload hentries h
  case refuses_iff =>
    rw [← haccepts]
    constructor
    · rintro ⟨cause, h⟩
      refine ⟨fun ⟨c, hc⟩ => ?_, fun hlong => ?_⟩
      · rw [h] at hc
        cases hc
      · rw [hbreaks hlong] at h
        cases h
    · rintro ⟨hnone, hshort⟩
      rcases hcases with (⟨c, hc, -⟩ | hrefused) | ⟨fault, hfault⟩
      · exact absurd ⟨c, hc⟩ hnone
      · exact hrefused
      · exact absurd ((breaksOff_iff hentries).mp hfault).2 hshort
  case breaksOff_iff =>
    refine ⟨fun h => ?_, hbreaks⟩
    rcases hcases with hdone | ⟨fault, hfault⟩
    · exact absurd hdone (not_restoresOrRefuses h)
    · exact ((breaksOff_iff hentries).mp hfault).2

/-- Of two spellings of a key, only the later one has to be that of the phase of its
summary. -/
theorem ofPayload_restoresExactly_respelled :
    let o : Occasion := { now := .millennium, freshId := "cycle" }
    let summary (phase : String) : Value := .dict [(.str "phase", .str phase)]
    let stored : List (Value × Value) :=
      [(.str "objectives", summary "problem_frame"), (.str " OBJECTIVES ", summary "Objectives")]
    let fields : List (Value × Value) :=
      [(.str "current_phase", .int 0), (.str "completed", .dict stored), (.str "cycle_id", .str "")]
    HasEntries fields stored ∧ RestoresExactly o fields stored ∧
      (ofPayload o (.dict fields)).toOption.map completedPhases = some [.objectives] := by
  intro o summary stored fields
  have hentries : HasEntries fields stored := ⟨.dict stored, rfl, .inl rfl⟩
  exact ⟨hentries, ofPayload_restoresExactly o hentries, by decide +kernel⟩

/-- A payload that is neither restored nor refused. -/
theorem ofPayload_longKeyEscapes :
    let o : Occasion := { now := .millennium, freshId := "cycle" }
    let stored : List (Value × Value) := [(.longInt, .null)]
    let fields : List (Value × Value) := [(.str "completed", .dict stored)]
    HasEntries fields stored ∧ ¬Acceptable o fields stored ∧
      ofPayload o (.dict fields) = .error (.payload .tooManyDigits) ∧
      ¬∃ cause, ofPayload o (.dict fields) = .error (refuse cause) := by
  intro o stored fields
  have hentries : HasEntries fields stored := ⟨.dict stored, rfl, .inl rfl⟩
  have hfirst : NamesCurrent fields .issueRaising := ⟨.null, rfl, rfl⟩
  have hlong : HasLongKey o stored :=
    ⟨[], .longInt, .null, [], rfl, by simp, Value.isWritable_longInt⟩
  have hbreaks : BreaksOff o (.dict fields) .tooManyDigits :=
    (breaksOff_iff hentries).mpr ⟨rfl, ⟨_, hfirst⟩, hlong⟩
  have hfault := ofPayload_of_breaksOff hbreaks
  refine ⟨hentries, fun h => ?_, hfault, fun ⟨cause, h⟩ => ?_⟩
  · obtain ⟨p, hp⟩ := h.keys _ List.mem_cons_self
    cases hp
  · rw [hfault] at h
    cases h

end DecisionCycle.Cycle
