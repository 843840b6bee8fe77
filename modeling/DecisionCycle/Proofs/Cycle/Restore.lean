import DecisionCycle.Proofs.Cycle.Step
import DecisionCycle.Proofs.Table

/-!
Restoring a cycle from whatever a payload stores. Every stored entry is read, in order,
and the first one that cannot be read stops the restoration. What is read is entered
under the phase that its key names, so of two entries for one phase the later one
replaces the earlier one, and only what is left in the end is checked against its
phase.

A payload that is a mapping is restored or refused as a malformed state, but for two
kinds of contents: completed phases that are given and no mapping, and an entry that
cannot be read under a key that cannot be written out.
-/

namespace DecisionCycle

namespace Value

theorem isWritable_of_toPhase {v : Value} {p : Phase} (h : v.toPhase = .ok p) :
    v.isWritable = true := by
  cases v with
  | str s => simp [isWritable]
  | _ => simp [toPhase] at h

theorem field_dict (fields : List (Value × Value)) (name : String) :
    (Value.dict fields).field name = .ok ((lookup? name fields).getD .null) := rfl

end Value

namespace Cycle

variable {o : Occasion} {v : Value}

/-! ### What a payload stores -/

def storedPhase (v : Value) : Except Fault Phase := do
  let raw ← (v.field "current_phase").mapError .payload
  (readCurrent raw).mapError refuse

theorem readCurrent_null : readCurrent .null = .ok .issueRaising := by
  change (Value.toPhase (.str Phase.issueRaising.key)).mapError _ = _
  rw [Value.toPhase_key]
  rfl

def storedEntries (v : Value) : Except PayloadFault (List (Value × Value)) := do
  let stored ← v.field "completed"
  (stored.orElse (.dict [])).entries

theorem field_of_storedEntries {entries : List (Value × Value)} {e : Value × Value}
    (h : storedEntries v = .ok entries) (he : e ∈ entries) :
    v.field "completed" = .ok (.dict entries) := by
  obtain ⟨stored, hstored, h⟩ := bind_eq_ok.mp h
  rw [hstored]
  by_cases hgiven : stored.isGiven = true
  · rw [Value.orElse_of_isGiven hgiven] at h
    cases stored <;> simp_all [Value.entries]
  · simp only [Value.orElse, hgiven, Value.entries] at h
    cases h
    cases he

theorem ofPayload_eq (o : Occasion) (v : Value) :
    ofPayload o v = (do
      let current ← storedPhase v
      let entries ← (storedEntries v).mapError .payload
      let completed ← readEntries o Table.empty entries
      let id ← (v.field "cycle_id").mapError .payload
      (create o.freshId id current completed).mapError refuse) := by
  unfold ofPayload storedPhase storedEntries
  cases v.field "current_phase" <;> cases v.field "completed" <;> rfl

theorem ofPayload_of_stored {p : Phase} {entries : List (Value × Value)}
    (hphase : storedPhase v = .ok p) (hentries : storedEntries v = .ok entries) :
    ofPayload o v = (do
      let completed ← readEntries o Table.empty entries
      let id ← (v.field "cycle_id").mapError .payload
      (create o.freshId id p completed).mapError refuse) := by
  rw [ofPayload_eq, hphase, hentries]
  rfl

/-- An entry stores a summary for a phase: its key names the phase, and its value is
the payload of the summary. -/
def Stores (o : Occasion) (e : Value × Value) (row : Phase × Summary) : Prop :=
  e.1.toPhase = .ok row.1 ∧ Summary.ofPayload o e.2 = .ok row.2

theorem exists_stores_of_mem {entries : List (Value × Value)} {rows : List (Phase × Summary)}
    (h : List.Forall₂ (Stores o) entries rows) {row : Phase × Summary} (hrow : row ∈ rows) :
    ∃ e ∈ entries, Stores o e row := by
  induction h with
  | nil => cases hrow
  | cons hstores _ ih =>
      rcases List.mem_cons.mp hrow with rfl | hrow
      · exact ⟨_, List.mem_cons_self, hstores⟩
      · obtain ⟨e, he, hstores⟩ := ih hrow
        exact ⟨e, List.mem_cons_of_mem _ he, hstores⟩

theorem readEntry_eq_ok {key raw : Value} {row : Phase × Summary} :
    readEntry o key raw = .ok row ↔ Stores o (key, raw) row := by
  rw [readEntry, mapError_eq_ok, bind_eq_ok]
  constructor
  · rintro ⟨p, hp, hread⟩
    obtain ⟨s, hs, hrow⟩ := bind_eq_ok.mp hread
    cases hrow
    exact ⟨hp, hs⟩
  · rintro ⟨hp, hs⟩
    exact ⟨row.1, hp, bind_eq_ok.mpr ⟨row.2, hs, rfl⟩⟩

theorem readEntry_eq_error {key raw : Value} {fault : Fault}
    (h : readEntry o key raw = .error fault) : ∃ cause, entryFault key cause = fault := by
  obtain ⟨cause, -, hfault⟩ := mapError_eq_error.mp h
  exact ⟨cause, hfault⟩

theorem readEntries_eq_ok {entries : List (Value × Value)} {t t' : Table Phase Summary} :
    readEntries o t entries = .ok t' ↔
      ∃ rows, List.Forall₂ (Stores o) entries rows ∧
        t' = rows.foldl (fun t row => t.put row.1 row.2) t := by
  -- the table is any, since an entry is read into what the entries before it have left
  induction entries generalizing t with
  | nil =>
      constructor
      · intro h
        cases h
        exact ⟨[], .nil, rfl⟩
      · rintro ⟨rows, hrows, rfl⟩
        cases hrows
        rfl
  | cons e entries ih =>
      obtain ⟨key, raw⟩ := e
      rw [readEntries, bind_eq_ok]
      constructor
      · rintro ⟨row, hrow, hrest⟩
        obtain ⟨rows, hrows, rfl⟩ := ih.mp hrest
        exact ⟨row :: rows, .cons (readEntry_eq_ok.mp hrow) hrows, rfl⟩
      · rintro ⟨rows, hrows, rfl⟩
        cases hrows with
        | cons hrow hrest =>
            exact ⟨_, readEntry_eq_ok.mpr hrow, ih.mpr ⟨_, hrest, rfl⟩⟩

/-- Reading stops at the first entry that cannot be read. -/
theorem readEntries_eq_error {entries : List (Value × Value)} {t : Table Phase Summary}
    {fault : Fault} :
    readEntries o t entries = .error fault ↔
      ∃ before e after, entries = before ++ e :: after ∧
        (∀ b ∈ before, ∃ row, Stores o b row) ∧ readEntry o e.1 e.2 = .error fault := by
  induction entries generalizing t with
  | nil => simp [readEntries]
  | cons first entries ih =>
      obtain ⟨key, raw⟩ := first
      rw [readEntries]
      constructor
      · intro h
        cases hfirst : readEntry o key raw with
        | error cause =>
            rw [hfirst] at h
            cases h
            exact ⟨[], (key, raw), entries, rfl, by simp, hfirst⟩
        | ok row =>
            rw [hfirst] at h
            obtain ⟨before, e, after, rfl, hbefore, he⟩ := ih.mp h
            refine ⟨(key, raw) :: before, e, after, rfl, ?_, he⟩
            rintro b (_ | ⟨_, hb⟩)
            · exact ⟨row, readEntry_eq_ok.mp hfirst⟩
            · exact hbefore b hb
      · rintro ⟨before, e, after, hsplit, hbefore, he⟩
        cases before with
        | nil =>
            cases hsplit
            rw [he]
            rfl
        | cons b before =>
            cases hsplit
            obtain ⟨row, hrow⟩ := hbefore _ List.mem_cons_self
            rw [readEntry_eq_ok.mpr hrow]
            exact ih.mpr ⟨before, e, after, rfl,
              fun b hb => hbefore b (List.mem_cons_of_mem _ hb), he⟩

/-! ### What is restored -/

theorem completed_of_ofPayload {c : Cycle} (h : ofPayload o v = .ok c) :
    ∃ entries rows, storedEntries v = .ok entries ∧ List.Forall₂ (Stores o) entries rows ∧
      c.completed = (Table.ofList rows).get? := by
  rw [ofPayload_eq] at h
  obtain ⟨current, -, h⟩ := bind_eq_ok.mp h
  obtain ⟨entries, hentries, h⟩ := bind_eq_ok.mp h
  obtain ⟨completed, hcompleted, h⟩ := bind_eq_ok.mp h
  obtain ⟨id, -, hcreate⟩ := bind_eq_ok.mp h
  obtain ⟨rows, hrows, rfl⟩ := readEntries_eq_ok.mp hcompleted
  obtain ⟨-, -, rfl⟩ := create_eq_ok.mp (mapError_eq_ok.mp hcreate)
  exact ⟨entries, rows, mapError_eq_ok.mp hentries, hrows, rfl⟩

theorem isCompleted_iff_mem {c : Cycle} {rows : List (Phase × Summary)}
    (hc : c.completed = (Table.ofList rows).get?) {p : Phase} :
    c.isCompleted p = true ↔ p ∈ rows.map Prod.fst := by
  rw [isCompleted, hc, Table.isSome_get?_ofList]

theorem Sound.isWorking_of_isCompleted {c : Cycle} (hc : c.Sound) {p : Phase}
    (hp : c.isCompleted p = true) : p.IsWorking := by
  obtain ⟨s, hs⟩ := Option.isSome_iff_exists.mp hp
  exact (hc.filed hs).1

/-- There are as many completed phases as different ones are named. -/
theorem Sound.length_completedPhases {c : Cycle} (hc : c.Sound)
    {rows : List (Phase × Summary)} (hrows : c.completed = (Table.ofList rows).get?) :
    c.completedPhases.length = (rows.map Prod.fst).dedup.length := by
  apply List.Perm.length_eq
  rw [completedPhases,
    List.perm_ext_iff_of_nodup (Phase.nodup_working.filter _) (List.nodup_dedup _)]
  intro p
  rw [List.mem_filter, Phase.mem_working, List.mem_dedup, isCompleted_iff_mem hrows]
  refine ⟨fun h => h.2, fun h => ⟨?_, h⟩⟩
  exact hc.isWorking_of_isCompleted ((isCompleted_iff_mem hrows).mpr h)

structure RestoredFrom (o : Occasion) (entries : List (Value × Value))
    (rows : List (Phase × Summary)) (c : Cycle) : Prop where
  stores : List.Forall₂ (Stores o) entries rows
  working : ∀ row ∈ rows, row.1.IsWorking
  last (p : Phase) : c.completed p = ((rows.filter fun row => row.1 = p).getLast?).map Prod.snd
  filed {p : Phase} {s : Summary} : c.completed p = some s → s.phase = p
  /-- Every entry is kept, and filed under its own phase, exactly if no two keys name
  one phase. -/
  keepsEvery_iff :
    (∀ row ∈ rows, row.2.phase = row.1) ∧ c.completedPhases.length = entries.length ↔
      (rows.map Prod.fst).Nodup

/-- **What a restored cycle keeps.** Every entry is read, and its key names a working
phase. Of several entries for one phase the last one is kept, and only that one has
to be filed under its own phase. -/
theorem ofPayload_restoredFrom {c : Cycle} (h : ofPayload o v = .ok c) :
    ∃ entries rows, storedEntries v = .ok entries ∧ RestoredFrom o entries rows c := by
  obtain ⟨entries, rows, hentries, hrows, hcompleted⟩ := completed_of_ofPayload h
  have hsound := sound_of_ofPayload h
  have hlength : entries.length = (rows.map Prod.fst).length := by
    rw [hrows.length_eq, List.length_map]
  refine ⟨entries, rows, hentries, hrows, fun row hrow => ?_, fun p => ?_,
    fun hp => (hsound.filed hp).2, ?_⟩
  · exact hsound.isWorking_of_isCompleted
      ((isCompleted_iff_mem hcompleted).mpr (List.mem_map_of_mem hrow))
  · rw [hcompleted, Table.get?_ofList]
  · rw [hsound.length_completedPhases hcompleted, hlength]
    constructor
    · rintro ⟨-, hsame⟩
      -- as many phases as entries are left, so leaving out repetitions left out none
      rw [← (List.dedup_sublist _).eq_of_length hsame]
      exact List.nodup_dedup _
    · intro hnodup
      refine ⟨fun row hrow => ?_, by rw [hnodup.dedup]⟩
      have hstored : c.completed row.1 = some row.2 := by
        rw [hcompleted]
        exact Table.get?_ofList_of_nodup hnodup hrow
      exact (hsound.filed hstored).2

/-- Two phases under keys in capitals and between blanks. -/
theorem ofPayload_restoredFrom_capitals :
    let o : Occasion := { now := .millennium, freshId := "cycle" }
    let summary (phase : String) : Value := .dict [(.str "phase", .str phase)]
    let stored : List (Value × Value) :=
      [(.str "TRADEOFFS", summary "tradeoffs"), (.str " Objectives ", summary "objectives")]
    let payload : Value := .dict [(.str "completed", .dict stored)]
    ∃ c, ofPayload o payload = .ok c ∧ c.completedPhases = [.objectives, .tradeoffs] ∧
      ∃ entries rows, storedEntries payload = .ok entries ∧ RestoredFrom o entries rows c := by
  intro o summary stored payload
  have hphases : (ofPayload o payload).toOption.map completedPhases =
      some [.objectives, .tradeoffs] := by decide +kernel
  cases h : ofPayload o payload with
  | error fault =>
      rw [h] at hphases
      cases hphases
  | ok c =>
      rw [h] at hphases
      exact ⟨c, rfl, Option.some.inj hphases, ofPayload_restoredFrom h⟩

/-- An entry in the wrong place goes unnoticed if a later key names the same phase. -/
theorem ofPayload_hidesEntry :
    let o : Occasion := { now := .millennium, freshId := "cycle" }
    let summary (phase : String) : Value := .dict [(.str "phase", .str phase)]
    let misfiled : Value × Value := (.str "objectives", summary "problem_frame")
    let stored := [misfiled, (.str "OBJECTIVES", summary "objectives")]
    let payload : Value := .dict [(.str "completed", .dict stored)]
    ∃ c, ofPayload o payload = .ok c ∧ storedEntries payload = .ok stored ∧
      c.completedPhases.length ≠ stored.length ∧
      ∃ row, Stores o misfiled row ∧ row.2.phase ≠ row.1 := by
  intro o summary misfiled stored payload
  have hphases : (ofPayload o payload).toOption.map completedPhases = some [.objectives] := by
    decide +kernel
  have hmisfiled : (Summary.ofPayload o misfiled.2).toOption.map Summary.phase =
      some .problemFrame := by decide +kernel
  cases h : ofPayload o payload with
  | error fault =>
      rw [h] at hphases
      cases hphases
  | ok c =>
      cases hs : Summary.ofPayload o misfiled.2 with
      | error fault =>
          rw [hs] at hmisfiled
          cases hmisfiled
      | ok s =>
          rw [h] at hphases
          rw [hs] at hmisfiled
          have hlength : c.completedPhases.length = 1 := by rw [Option.some.inj hphases]; rfl
          have hphase : s.phase = .problemFrame := Option.some.inj hmisfiled
          refine ⟨c, rfl, rfl, by rw [hlength]; decide, (.objectives, s), ⟨?_, hs⟩, ?_⟩
          · exact Value.toPhase_key .objectives
          · simp [hphase]

/-! ### What a restoration may end with -/

def RestoresOrRefuses (r : Except Fault Cycle) : Prop :=
  (∃ c, r = .ok c ∧ c.current.IsWorking ∧
      ∀ p s, c.completed p = some s → p.IsWorking ∧ s.phase = p) ∨
    ∃ cause, r = .error (refuse cause)

/-- Reading breaks off with a fault that is no refusal of the state: the completed
phases are given and no mapping, or the first entry that cannot be read has a key
that cannot be written out. -/
inductive BreaksOff (o : Occasion) (v : Value) : PayloadFault → Prop where
  | noMapping {p : Phase} {stored : Value} (hphase : storedPhase v = .ok p)
      (hstored : v.field "completed" = .ok stored) (hgiven : stored.isGiven = true)
      (hmapping : ∀ entries, stored ≠ .dict entries) : BreaksOff o v .notMapping
  | longKey {p : Phase} {before after : List (Value × Value)} {key raw : Value}
      (hphase : storedPhase v = .ok p)
      (hentries : storedEntries v = .ok (before ++ (key, raw) :: after))
      (hbefore : ∀ e ∈ before, ∃ row, Stores o e row) (hkey : key.isWritable = false) :
      BreaksOff o v .tooManyDigits

theorem storedEntries_eq_error {stored : Value} (hstored : v.field "completed" = .ok stored)
    {fault : PayloadFault} :
    storedEntries v = .error fault ↔
      fault = .notMapping ∧ stored.isGiven = true ∧ ∀ entries, stored ≠ .dict entries := by
  rw [storedEntries, hstored]
  change (stored.orElse (.dict [])).entries = .error fault ↔ _
  by_cases hgiven : stored.isGiven = true
  · rw [Value.orElse_of_isGiven hgiven]
    cases stored <;> simp [Value.entries, hgiven, eq_comm]
  · simp [Value.orElse, hgiven, Value.entries]

theorem readEntry_of_not_isWritable {key : Value} (hkey : key.isWritable = false) (raw : Value) :
    readEntry o key raw = .error (.payload .tooManyDigits) := by
  cases h : readEntry o key raw with
  | ok row =>
      rw [Value.isWritable_of_toPhase (readEntry_eq_ok.mp h).1] at hkey
      cases hkey
  | error fault =>
      obtain ⟨cause, rfl⟩ := readEntry_eq_error h
      rw [entryFault, hkey]
      rfl

theorem ofPayload_of_breaksOff {fault : PayloadFault} (h : BreaksOff o v fault) :
    ofPayload o v = .error (.payload fault) := by
  cases h with
  | noMapping hphase hstored hgiven hmapping =>
      rw [ofPayload_eq, hphase, (storedEntries_eq_error hstored).mpr ⟨rfl, hgiven, hmapping⟩]
      rfl
  | @longKey p before after key raw hphase hentries hbefore hkey =>
      have hread : readEntries o Table.empty (before ++ (key, raw) :: after) =
          .error (.payload .tooManyDigits) :=
        readEntries_eq_error.mpr
          ⟨before, (key, raw), after, rfl, hbefore, readEntry_of_not_isWritable hkey raw⟩
      rw [ofPayload_of_stored hphase hentries, hread]
      rfl

theorem restoresOrRefuses_or_breaksOff (o : Occasion) (fields : List (Value × Value)) :
    RestoresOrRefuses (ofPayload o (.dict fields)) ∨
      ∃ fault, BreaksOff o (.dict fields) fault := by
  cases hphase : storedPhase (.dict fields) with
  | error fault =>
      obtain ⟨cause, -, rfl⟩ := mapError_eq_error.mp hphase
      exact .inl (.inr ⟨cause, by rw [ofPayload_eq, hphase]; rfl⟩)
  | ok p =>
  cases hentries : storedEntries (.dict fields) with
  | error fault =>
      obtain ⟨-, hgiven, hmapping⟩ :=
        (storedEntries_eq_error (Value.field_dict fields _)).mp hentries
      exact .inr ⟨_, .noMapping hphase (Value.field_dict fields _) hgiven hmapping⟩
  | ok entries =>
  cases hread : readEntries o Table.empty entries with
  | error fault =>
      obtain ⟨before, ⟨key, raw⟩, after, rfl, hbefore, he⟩ := readEntries_eq_error.mp hread
      obtain ⟨cause, rfl⟩ := readEntry_eq_error he
      cases hkey : key.isWritable with
      | false => exact .inr ⟨_, .longKey hphase hentries hbefore hkey⟩
      | true =>
          refine .inl (.inr ⟨.malformed key cause, ?_⟩)
          rw [ofPayload_of_stored hphase hentries, hread, entryFault, hkey]
          rfl
  | ok completed =>
      cases hresult : ofPayload o (.dict fields) with
      | ok c =>
          have hsound := sound_of_ofPayload hresult
          exact .inl (.inl ⟨c, rfl, hsound.working, fun _ _ hp => hsound.filed hp⟩)
      | error fault =>
          -- everything is read, so it was creating the cycle that failed
          rw [ofPayload_of_stored hphase hentries, hread] at hresult
          obtain ⟨cause, -, rfl⟩ := mapError_eq_error.mp hresult
          exact .inl (.inr ⟨cause, rfl⟩)

theorem not_restoresOrRefuses {r : Except Fault Cycle} {fault : PayloadFault}
    (h : r = .error (.payload fault)) : ¬RestoresOrRefuses r := by
  rintro (⟨c, hc, -⟩ | ⟨cause, hcause⟩)
  · rw [h] at hc
    cases hc
  · rw [h] at hcause
    cases hcause

/-- **Restoring or refusing.** From a mapping a cycle is restored whose phases are in
order, or the state is refused, exactly if reading does not break off; and reading
breaks off with just the faults that are no refusal. -/
theorem restoresOrRefuses_iff (o : Occasion) (fields : List (Value × Value)) :
    (RestoresOrRefuses (ofPayload o (.dict fields)) ↔
        ∀ fault, ¬BreaksOff o (.dict fields) fault) ∧
      ∀ fault, ofPayload o (.dict fields) = .error (.payload fault) ↔
        BreaksOff o (.dict fields) fault := by
  have hcases := restoresOrRefuses_or_breaksOff o fields
  refine ⟨⟨fun h fault hbreaks => ?_, fun h => ?_⟩, fun fault => ⟨fun h => ?_, ?_⟩⟩
  · exact not_restoresOrRefuses (ofPayload_of_breaksOff hbreaks) h
  · rcases hcases with hdone | ⟨fault, hbreaks⟩
    · exact hdone
    · exact absurd hbreaks (h fault)
  · rcases hcases with hdone | ⟨other, hbreaks⟩
    · exact absurd hdone (not_restoresOrRefuses h)
    · rw [ofPayload_of_breaksOff hbreaks] at h
      cases h
      exact hbreaks
  · exact ofPayload_of_breaksOff

/-- A list in the place of the completed phases, and a number as a key that is too
long to be shown. -/
theorem ofPayload_breaksOff :
    let o : Occasion := { now := .millennium, freshId := "cycle" }
    let listed : Value := .dict [(.str "completed", .list [.str "issue_raising"])]
    let long : Value := .int (Nat.pow 10 Text.digitLimit)
    let numbered : Value := .dict [(.str "completed", .dict [(long, .null)])]
    (ofPayload o listed = .error (.payload .notMapping) ∧
        ¬RestoresOrRefuses (ofPayload o listed)) ∧
      ofPayload o numbered = .error (.payload .tooManyDigits) ∧
        ¬RestoresOrRefuses (ofPayload o numbered) := by
  intro o listed long numbered
  have hphase (stored : Value) :
      storedPhase (.dict [(.str "completed", stored)]) = .ok .issueRaising := by
    change (readCurrent .null).mapError refuse = _
    rw [readCurrent_null]
    rfl
  have hlisted : ofPayload o listed = .error (.payload .notMapping) := by
    refine ofPayload_of_breaksOff (.noMapping (hphase _) rfl rfl fun entries h => ?_)
    cases h
  have hlong : long.isWritable = false := Value.isWritable_longInt
  have hnumbered : ofPayload o numbered = .error (.payload .tooManyDigits) :=
    ofPayload_of_breaksOff (@BreaksOff.longKey o numbered .issueRaising [] [] long .null
      (hphase _) rfl (by simp) hlong)
  exact ⟨⟨hlisted, not_restoresOrRefuses hlisted⟩, hnumbered, not_restoresOrRefuses hnumbered⟩

end Cycle

end DecisionCycle
