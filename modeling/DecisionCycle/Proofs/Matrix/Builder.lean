import DecisionCycle.Matrix.Builder
import DecisionCycle.Proofs.Matrix.Entry
import DecisionCycle.Proofs.Payload

/-!
What a builder gives out, read off the calls made to it. A matrix that is built declares
the names of the last call for them that was not refused. It has one cell for each pair of
names that was filled, in the order in which the pairs were filled first; the cell holds
what was filled in last. Names are compared as text, so different values may stand for one
name. Calls that are refused count for nothing, and calls that come later leave the matrix
as it is.

A step lemma says how one call that is not refused continues the history of a draft, and
the run lemma follows by induction on the calls.
-/

namespace DecisionCycle

/-! ### The history of a builder -/

namespace BuilderCall

def alternatives? : BuilderCall → Option (List Text)
  | .edit (.alternatives names) => names.items.toOption.map (List.map Value.text)
  | _ => none

def objectives? : BuilderCall → Option (List Text)
  | .edit (.objectives names) => names.items.toOption.map (List.map Value.text)
  | _ => none

def cell? : BuilderCall → Option Cell
  | .edit (.cell alternative objective rating rationale) =>
      (Rating.ofPayload rating).toOption.map fun r =>
        { alternative := alternative.text, objective := objective.text, rating := r, rationale }
  | _ => none

end BuilderCall

def Cell.place (c : Cell) : Text × Text :=
  (c.alternative, c.objective)

namespace Builder

def accepted (b : Builder) : List BuilderCall → List BuilderCall
  | [] => []
  | call :: calls =>
      match b.perform call with
      | .ok b' => call :: b'.accepted calls
      | .error _ => b.accepted calls

theorem after_append (b : Builder) (calls more : List BuilderCall) :
    b.after (calls ++ more) = (b.after calls).after more :=
  List.foldl_append

theorem next_eq_of_ok {b b' : Builder} {call : BuilderCall} (h : b.perform call = .ok b') :
    b.next call = b' := by
  rw [next, h]
  rfl

theorem next_eq_of_error {b : Builder} {call : BuilderCall} {fault : PayloadFault}
    (h : b.perform call = .error fault) : b.next call = b := by
  rw [next, h]
  rfl

end Builder

/-! ### What a call does -/

namespace Matrix

theorem readNames_eq_ok {v : Value} {names : List Text} (h : readNames v = .ok names) :
    ∃ texts, v.items.toOption.map (List.map Value.text) = some texts ∧
      names = texts.eraseDups := by
  obtain ⟨items, hitems, h⟩ := bind_eq_ok.mp h
  obtain ⟨texts, htexts, h⟩ := bind_eq_ok.mp h
  cases h
  refine ⟨items.map Value.text, ?_, ?_⟩
  · rw [hitems]
    rfl
  · rw [eq_map_of_mapM_eq_ok Value.eq_text_of_written htexts]

/-- A matrix holds what some calls declare and fill, the last call counting. -/
structure Follows (m : Matrix) (calls : List BuilderCall) : Prop where
  alternatives :
    m.alternatives = ((calls.filterMap BuilderCall.alternatives?).getLast?.getD []).eraseDups
  objectives :
    m.objectives = ((calls.filterMap BuilderCall.objectives?).getLast?.getD []).eraseDups
  cells : m.cells = Table.ofList ((calls.filterMap BuilderCall.cell?).map fun c => (c.place, c))

theorem follows_nil : empty.Follows [] :=
  ⟨rfl, rfl, rfl⟩

/-- A call continues the history of a matrix if it changes what it declares or fills, and
nothing else. -/
theorem Follows.concat {m m' : Matrix} {calls : List BuilderCall} {call : BuilderCall}
    (h : m.Follows calls)
    (halternatives : m'.alternatives =
      (call.alternatives?.map List.eraseDups).getD m.alternatives)
    (hobjectives : m'.objectives = (call.objectives?.map List.eraseDups).getD m.objectives)
    (hcells : m'.cells = (call.cell?.map fun c => m.cells.put c.place c).getD m.cells) :
    m'.Follows (calls ++ [call]) where
  alternatives := by
    rw [getLast?_filterMap_concat, halternatives, h.alternatives]
    cases call.alternatives? <;> rfl
  objectives := by
    rw [getLast?_filterMap_concat, hobjectives, h.objectives]
    cases call.objectives? <;> rfl
  cells := by
    rw [filterMap_concat, List.map_append, hcells, h.cells]
    cases call.cell? with
    | none => simp
    | some c => exact (Table.ofList_concat _ (c.place, c)).symm

theorem Follows.edit {m m' : Matrix} {calls : List BuilderCall} {step : Edit}
    (h : m.Follows calls) (hstep : m.edit step = .ok m') :
    m'.Follows (calls ++ [.edit step]) := by
  cases stepsTo_of_edit hstep with
  | @alternatives names _ hread =>
      obtain ⟨texts, htexts, rfl⟩ := readNames_eq_ok hread
      have hcall : (BuilderCall.edit (.alternatives names)).alternatives? = some texts := htexts
      exact h.concat (by rw [hcall]; rfl) rfl rfl
  | @objectives names _ hread =>
      obtain ⟨texts, htexts, rfl⟩ := readNames_eq_ok hread
      have hcall : (BuilderCall.edit (.objectives names)).objectives? = some texts := htexts
      exact h.concat rfl (by rw [hcall]; rfl) rfl
  | @cell alternative objective rating rationale _ _ r halternative hobjective hrating =>
      obtain rfl := Value.eq_text_of_written halternative
      obtain rfl := Value.eq_text_of_written hobjective
      have hcall : (BuilderCall.edit (.cell alternative objective rating rationale)).cell? =
          some ⟨alternative.text, objective.text, r, rationale⟩ := by
        rw [BuilderCall.cell?, hrating]
        rfl
      exact h.concat rfl rfl (by rw [hcall]; rfl)

theorem Follows.perform {b b' : Builder} {calls : List BuilderCall} {call : BuilderCall}
    (h : b.draft.Follows calls) (hcall : b.perform call = .ok b') :
    b'.draft.Follows (calls ++ [call]) := by
  cases call with
  | edit step =>
      obtain ⟨m, hstep, hcall⟩ := bind_eq_ok.mp hcall
      cases hcall
      exact h.edit hstep
  | build =>
      cases hcall
      exact h.concat rfl rfl rfl

theorem Follows.after {b : Builder} {history : List BuilderCall} (h : b.draft.Follows history)
    (calls : List BuilderCall) : (b.after calls).draft.Follows (history ++ b.accepted calls) := by
  -- for any history: it grows with every call that is not refused
  induction calls generalizing b history with
  | nil => simpa [Builder.accepted, Builder.after] using h
  | cons call calls ih =>
      change (((b.next call).after calls).draft).Follows _
      rw [Builder.accepted]
      cases hcall : b.perform call with
      | ok b' =>
          rw [Builder.next_eq_of_ok hcall, List.append_cons]
          exact ih (h.perform hcall)
      | error fault =>
          rw [Builder.next_eq_of_error hcall]
          exact ih h

/-! ### What a matrix shows of its history -/

structure Records (m : Matrix) (calls : List BuilderCall) : Prop where
  alternatives : FirstOccurrences
    ((calls.filterMap BuilderCall.alternatives?).getLast?.getD []) m.alternatives
  objectives : FirstOccurrences
    ((calls.filterMap BuilderCall.objectives?).getLast?.getD []) m.objectives
  places : FirstOccurrences ((calls.filterMap BuilderCall.cell?).map Cell.place) m.cells.keys
  last {place : Text × Text} {c : Cell} : (place, c) ∈ m.cells.rows →
    ((calls.filterMap BuilderCall.cell?).filter (·.place = place)).getLast? = some c
  own {place : Text × Text} {c : Cell} : (place, c) ∈ m.cells.rows → c.place = place
  rated {place : Text × Text} {c : Cell} : (place, c) ∈ m.cells.rows →
    -2 ≤ c.rating.value ∧ c.rating.value ≤ 2

theorem Follows.last {m : Matrix} {calls : List BuilderCall} (h : m.Follows calls)
    {place : Text × Text} {c : Cell} (hc : (place, c) ∈ m.cells.rows) :
    ((calls.filterMap BuilderCall.cell?).filter (·.place = place)).getLast? = some c := by
  have hkeys : m.cells.keys.Nodup := by
    rw [h.cells, Table.keys_ofList]
    exact nodup_eraseDups _
  have hget := (Table.get?_eq_some_iff hkeys).mpr hc
  rw [h.cells, Table.get?_ofList, List.filter_map, List.getLast?_map, Option.map_map] at hget
  simpa [Function.comp_def] using hget

theorem Follows.records {m : Matrix} {calls : List BuilderCall} (h : m.Follows calls) :
    m.Records calls where
  alternatives := h.alternatives ▸ firstOccurrences_eraseDups _
  objectives := h.objectives ▸ firstOccurrences_eraseDups _
  places := by
    rw [h.cells, Table.keys_ofList, List.map_map]
    exact firstOccurrences_eraseDups _
  last := h.last
  own hc := of_decide_eq_true (List.mem_filter.mp (List.mem_of_getLast? (h.last hc))).2
  rated {_ c} _ := c.rating.value_bounds

end Matrix

namespace Builder

/-- Calls never take back a matrix that was given out, nor put another in its place. -/
theorem built_prefix_after (b : Builder) (calls : List BuilderCall) :
    b.built <+: (b.after calls).built := by
  induction calls generalizing b with
  | nil => exact List.prefix_refl _
  | cons call calls ih =>
      refine List.IsPrefix.trans ?_ (ih (b.next call))
      cases hcall : b.perform call with
      | error fault => rw [next_eq_of_error hcall]
      | ok b' =>
          rw [next_eq_of_ok hcall]
          cases call with
          | edit step =>
              obtain ⟨m, -, hcall⟩ := bind_eq_ok.mp hcall
              cases hcall
              exact List.prefix_refl _
          | build =>
              cases hcall
              exact List.prefix_append _ _

/-- **A matrix that is built records the calls so far.** After any calls, the matrix that is
built next shows what the calls that were not refused declare and fill, and it is there,
unchanged, after all later calls. A refused call changes nothing. -/
theorem build_recordsCalls (calls : List BuilderCall) :
    let b := start.after calls
    b.draft.Records (start.accepted calls) ∧
      (∀ later, (start.after (calls ++ .build :: later)).built[b.built.length]? = some b.draft) ∧
      ∀ call fault, b.perform call = .error fault → start.after (calls ++ [call]) = b := by
  intro b
  have hstart : start.draft.Follows [] := Matrix.follows_nil
  have hfollows : b.draft.Follows (start.accepted calls) := hstart.after calls
  refine ⟨hfollows.records, fun later => ?_, fun call fault hcall => ?_⟩
  · obtain ⟨more, hmore⟩ := (b.next .build).built_prefix_after later
    have hnext : (b.next .build).built = b.built ++ [b.draft] := rfl
    rw [after_append]
    change ((b.next .build).after later).built[b.built.length]? = some b.draft
    rw [← hmore, hnext, List.append_assoc, List.getElem?_append_right le_rfl]
    simp
  · rw [after_append]
    exact next_eq_of_error hcall

/-- The number 1 and the text of it are one name. A cell that is filled again keeps its place,
and a rating that is out of range changes nothing. -/
example :
    let cell (a o r : Value) : BuilderCall := .edit (.cell a o r .null)
    let m := (start.after [.edit (.alternatives (.list [.int 1, .str "B", .str "1"])), .build,
      cell (.int 1) (.str "Cost") (.int 2), cell (.str "B") (.str "Cost") (.int 1),
      cell (.str "1") (.str "Cost") (.int (-1)), cell (.str "B") (.str "Cost") (.int 3)]).draft
    m.alternatives = ["1", "B"] ∧ m.cells.keys.map Prod.fst = ["1", "B"] ∧
      m.cells.values.map Cell.rating = [.worse, .better] := by
  decide +kernel

end Builder

end DecisionCycle
