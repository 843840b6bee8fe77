import DecisionCycle.Proofs.Cycle.Stored
import DecisionCycle.Proofs.Table

/-!
What a cycle remembers of its history. For every phase that is the summary recorded
last, whatever was refused or replaced before it, and where nothing was recorded it
is the summary from the beginning. A restoration leaves each summary as its payload
is read, so one that was recorded before it is remembered in that form. Every way of
looking at a cycle shows these summaries and no others, in the order of the phases.

All of this is about cycles whose identifier can be written out. In any other a summary
may be stored and the call that offered it fail.
-/

namespace DecisionCycle

def Request.isReload : Request → Bool
  | .reload => true
  | _ => false

/-- A summary as some calls leave it: reread if there is a restoration among them. -/
def Summary.keptBy (calls : List Call) (s : Summary) : Summary :=
  if calls.any (·.request.isReload) then s.reread else s

namespace Summary

@[simp] theorem reread_reread (s : Summary) : s.reread.reread = s.reread := by
  have hlegible := (Timestamp.isLegible_reread s.completedAt).assumeUtc
  have hsome : s.completedAt.reread.assumeUtc.offset.isSome := rfl
  simp [reread, Timestamp.reread_eq_self hlegible, Timestamp.assumeUtc_eq_self hsome]

theorem keptBy_of_no_reload {calls : List Call}
    (h : calls.any (·.request.isReload) = false) : keptBy calls = fun s => s := by
  funext s
  simp [keptBy, h]

theorem keptBy_cons (call : Call) (calls : List Call) (s : Summary) :
    s.keptBy (call :: calls) = (s.keptBy [call]).keptBy calls := by
  by_cases hcall : call.request.isReload <;> by_cases hrest : calls.any (·.request.isReload) <;>
    simp [keptBy, hcall, hrest]

end Summary

namespace Cycle

/-! ### The history of a run -/

def recordedBy (c : Cycle) (call : Call) : Option Summary :=
  match (c.perform call.occasion call.request).answer with
  | .ok .done => call.request.summary? call.occasion
  | _ => none

/-- The summaries that calls record, each with the calls that come after it. -/
def recorded (c : Cycle) : List Call → List (Summary × List Call)
  | [] => []
  | call :: calls =>
      ((c.recordedBy call).map (·, calls)).toList ++
        recorded (c.perform call.occasion call.request).cycle calls

/-- The summary of a phase that was recorded last, with the calls that come after
it. Where none was recorded it is the one from the beginning, and all calls. -/
def lastRecord (c : Cycle) (calls : List Call) (p : Phase) : Option (Summary × List Call) :=
  ((c.recorded calls).filter (·.1.phase = p)).getLast?.or ((c.completed p).map (·, calls))

def remembered (c : Cycle) (calls : List Call) (p : Phase) : Option Summary :=
  (c.lastRecord calls p).map fun w => w.1.keptBy w.2

theorem suffix_of_mem_recorded {c : Cycle} {calls : List Call} {w : Summary × List Call}
    (hw : w ∈ c.recorded calls) : w.2 <:+ calls := by
  induction calls generalizing c with
  | nil => cases hw
  | cons call calls ih =>
      rcases List.mem_append.mp hw with hfirst | hrest
      · obtain ⟨s, -, rfl⟩ := Option.map_eq_some_iff.mp (Option.mem_toList.mp hfirst)
        exact List.suffix_cons call calls
      · exact (ih hrest).trans (List.suffix_cons call calls)

theorem suffix_of_lastRecord {c : Cycle} {calls : List Call} {p : Phase}
    {w : Summary × List Call} (hw : c.lastRecord calls p = some w) : w.2 <:+ calls := by
  rcases Option.or_eq_some_iff.mp hw with hlast | ⟨-, hinitial⟩
  · exact suffix_of_mem_recorded (List.mem_of_mem_filter (List.mem_of_getLast? hlast))
  · obtain ⟨s, -, rfl⟩ := Option.map_eq_some_iff.mp hinitial
    exact List.suffix_refl calls

theorem remembered_of_no_reload {calls : List Call}
    (hcalls : ∀ call ∈ calls, call.request.isReload = false) (c : Cycle) (p : Phase) :
    c.remembered calls p = (c.lastRecord calls p).map Prod.fst := by
  refine Option.map_congr fun w hw => ?_
  have hlater : w.2.any (·.request.isReload) = false := by
    rw [List.any_eq_false]
    intro call hcall
    rw [hcalls call ((suffix_of_lastRecord hw).subset hcall)]
    exact Bool.false_ne_true
  rw [Summary.keptBy_of_no_reload hlater]

theorem answer_eq_done_iff {o : Occasion} {r : Request} {s : Summary} {c : Cycle}
    (hid : c.id.isWritable = true) (hr : r.summary? o = some s) :
    (c.perform o r).answer = .ok .done ↔ s.phase = c.current := by
  rw [perform_of_summary? c hr]
  rcases c.record_cases s with ⟨hs, h⟩ | ⟨hs, h⟩
  · have hstored : (c.store s).id.isWritable = true := hid
    simp [h, hs, Outcome.telling_of_isWritable hstored, Outcome.map, Except.map]
  · simp [h, hs, Outcome.telling_of_isWritable hid, Outcome.map, Except.map]

theorem recordedBy_of_summary? {call : Call} {s : Summary} {c : Cycle}
    (hid : c.id.isWritable = true) (hr : call.request.summary? call.occasion = some s) :
    c.recordedBy call = if s.phase = c.current then some s else none := by
  have hiff := answer_eq_done_iff hid hr
  unfold recordedBy
  rw [hr]
  split
  case h_1 h => rw [if_pos (hiff.mp h)]
  case h_2 h => rw [if_neg fun hs => h (hiff.mpr hs)]

theorem recordedBy_eq_none {call : Call} (c : Cycle)
    (hr : call.request.summary? call.occasion = none) : c.recordedBy call = none := by
  unfold recordedBy
  rw [hr]
  split <;> rfl

theorem Step.completed_eq {o : Occasion} {c c' : Cycle} {r : Request} (h : Step o c r c')
    (hs : r.summary? o = none) (hreload : r.isReload = false) (hrestore : ¬r.IsRestore) :
    c'.completed = c.completed := by
  cases h with
  | stay => rfl
  | move => rfl
  | store hr => simp [hs] at hr
  | reload => cases hreload
  | restore => exact absurd trivial hrestore

/-- What a single call leaves for a phase: the summary that it records, or else what
was there before. -/
theorem completed_perform {c : Cycle} (hc : c.Sound) (hid : c.id.isWritable = true) (call : Call)
    (hrestore : ¬call.request.IsRestore) (p : Phase) :
    (c.perform call.occasion call.request).cycle.completed p =
      ((c.recordedBy call).filter (·.phase = p)).or
        ((c.completed p).map (Summary.keptBy [call])) := by
  obtain ⟨o, r⟩ := call
  cases hs : r.summary? o with
  | some s =>
      -- a request that offers a summary restores nothing
      have hreload : r.isReload = false := by cases r <;> first | rfl | cases hs
      have hkept : Summary.keptBy [⟨o, r⟩] = fun s => s :=
        Summary.keptBy_of_no_reload (by simp [hreload])
      rw [recordedBy_of_summary? hid hs, perform_of_summary? c hs, hkept, Option.map_id',
        Outcome.cycle_map]
      rcases c.record_cases s with ⟨hphase, h⟩ | ⟨hphase, h⟩
      · rw [h, Outcome.cycle_telling, if_pos hphase, completed_store]
        by_cases hp : p = s.phase <;> simp [Option.filter, hp, eq_comm]
      · rw [h, Outcome.cycle_telling, if_neg hphase]
        rfl
  | none =>
      rw [recordedBy_eq_none c hs, Option.filter_none, Option.none_or]
      cases hreload : r.isReload with
      | true =>
          have hr : r = .reload := by cases r <;> first | rfl | cases hreload
          subst hr
          rw [perform_reload hc]
          rfl
      | false =>
          have hkept : Summary.keptBy [⟨o, r⟩] = fun s => s :=
            Summary.keptBy_of_no_reload (by simp [hreload])
          rw [(step_perform o c r).completed_eq hs hreload hrestore, hkept, Option.map_id']

theorem completed_after {c : Cycle} (hc : c.Sound) (hid : c.id.isWritable = true)
    {calls : List Call} (hcalls : ∀ call ∈ calls, ¬call.request.IsRestore) (p : Phase) :
    (c.after calls).completed p = c.remembered calls p := by
  induction calls generalizing c with
  | nil =>
      have hkept : Summary.keptBy [] = fun s => s := Summary.keptBy_of_no_reload rfl
      simp [remembered, lastRecord, recorded, hkept, Function.comp_def]
  | cons call calls ih =>
      have hfirst := hcalls call List.mem_cons_self
      have hstep := step_perform call.occasion c call.request
      have hnext := hc.step hstep
      have hnextId : (c.perform call.occasion call.request).cycle.id.isWritable = true := by
        rwa [hc.id_eq_of_step hstep hfirst]
      have hcall := completed_perform hc hid call hfirst p
      -- what the first call records counts only where nothing is recorded later
      rw [after_cons, ih hnext hnextId fun other hother =>
        hcalls other (List.mem_cons_of_mem _ hother)]
      unfold remembered lastRecord
      rw [recorded, List.filter_append, List.getLast?_append, Option.or_assoc, Option.map_or,
        Option.map_or, hcall]
      congr 1
      cases hrecorded : c.recordedBy call with
      | none => simp [Function.comp_def, Summary.keptBy_cons call calls]
      | some s =>
          by_cases hp : s.phase = p <;>
            simp [Option.filter, hp, Function.comp_def, Summary.keptBy_cons call calls]

theorem Sound.isCompleted_step {o : Occasion} {c c' : Cycle} {r : Request} (hc : c.Sound)
    (hstep : Step o c r c') (hrestore : ¬r.IsRestore) {p : Phase}
    (hp : c.isCompleted p = true) : c'.isCompleted p = true := by
  cases hstep with
  | stay => exact hp
  | move => exact hp
  | store =>
      rw [isCompleted, completed_store]
      split
      · rfl
      · exact hp
  | reload hload =>
      rw [ofPayload_toPayload hc o] at hload
      cases hload
      simpa [isCompleted] using hp
  | restore => exact absurd trivial hrestore

/-- Nothing but a restoration of another cycle removes a completion. -/
theorem Sound.isCompleted_after {c : Cycle} (hc : c.Sound) {calls : List Call}
    (hcalls : ∀ call ∈ calls, ¬call.request.IsRestore) {p : Phase}
    (hp : c.isCompleted p = true) : (c.after calls).isCompleted p = true :=
  hc.after_of_step (fun hc h hcall hstep => hc.isCompleted_step hstep hcall h) hp hcalls

/-! ### Looking at a cycle -/

section Looks

variable {c : Cycle} (hc : c.Sound)

include hc

theorem Sound.map_phase_filterMap (phases : List Phase) :
    (phases.filterMap c.completed).map Summary.phase = phases.filter c.isCompleted :=
  map_filterMap_eq_filter (fun _ _ hp => (hc.filed hp).2) phases

theorem Sound.filter_phase_filterMap (r : Phase) {phases : List Phase} (hphases : phases.Nodup) :
    ((phases.filterMap c.completed).filter fun s => s.phase = r) =
      if r ∈ phases then (c.completed r).toList else [] := by
  induction phases with
  | nil => rfl
  | cons p phases ih =>
      obtain ⟨hfirst, hrest⟩ := List.nodup_cons.mp hphases
      cases hp : c.completed p with
      | none =>
          rw [List.filterMap_cons_none hp, ih hrest]
          by_cases hr : r = p
          · rw [hr, if_neg hfirst, if_pos List.mem_cons_self, hp]
            rfl
          · simp [hr]
      | some s =>
          rw [List.filterMap_cons_some hp, List.filter_cons, ih hrest, (hc.filed hp).2]
          by_cases hr : r = p
          · rw [hr, if_neg hfirst, if_pos List.mem_cons_self, hp]
            simp
          · simp [hr, Ne.symm hr]

theorem Sound.summariesFor_contextFor (q r : Phase) :
    (c.contextFor q).summariesFor r = if r = q then [] else (c.completed r).toList := by
  have hphases : (Phase.working.filter (· ≠ q)).Nodup := Phase.nodup_working.filter _
  rw [contextFor, Context.summariesFor, hc.filter_phase_filterMap r hphases]
  by_cases hr : r = q
  · simp [hr]
  · cases hcompleted : c.completed r with
    | none => simp
    | some s => simp [hr, (hc.filed hcompleted).1]

theorem Sound.map_phase_prior (q : Phase) :
    (c.contextFor q).prior.map Summary.phase = c.completedPhases.filter (· ≠ q) := by
  rw [contextFor, hc.map_phase_filterMap, completedPhases, List.filter_comm]

end Looks

theorem map_fst_storedIn (c : Cycle) (phases : List Phase) :
    (c.storedIn phases).map Prod.fst =
      (phases.filter c.isCompleted).map fun p => .str p.key := by
  induction phases with
  | nil => rfl
  | cons p phases ih =>
      cases hp : c.completed p <;> simpa [storedIn, isCompleted, hp] using ih

/-- Every way of looking at a cycle shows the same summaries, one for each completed
phase and in order of the phases. -/
structure Shows (c : Cycle) (stored : Phase → Option Summary) : Prop where
  summaryOf (p : Phase) : c.completed p = stored p
  filed {p : Phase} {s : Summary} : stored p = some s → p.IsWorking ∧ s.phase = p
  completedPhases :
    c.completedPhases = Phase.working.filter fun p => (stored p).isSome
  prior (q : Phase) :
    (c.contextFor q).prior = (Phase.working.filter (· ≠ q)).filterMap stored ∧
      (c.contextFor q).prior.map Summary.phase = c.completedPhases.filter (· ≠ q)
  summariesFor (q r : Phase) :
    (c.contextFor q).summariesFor r = if r = q then [] else (stored r).toList
  payload : ∃ entries, c.toPayload.field "completed" = .ok (.dict entries) ∧
    entries.map Prod.fst = c.completedPhases.map (fun p => .str p.key) ∧
    entries = Phase.working.filterMap fun p =>
      (stored p).map fun s => (.str p.key, s.toPayload)

theorem Sound.shows {c : Cycle} (hc : c.Sound) : c.Shows c.completed where
  summaryOf _ := rfl
  filed := hc.filed
  completedPhases := rfl
  prior q := ⟨rfl, hc.map_phase_prior q⟩
  summariesFor := hc.summariesFor_contextFor
  payload := ⟨c.storedSummaries, by simp [toPayload, Value.field, Value.fieldOr, Value.lookup?],
    c.map_fst_storedIn Phase.working, rfl⟩

/-- **The last record counts.** Take any cycle that was created or restored, with an
identifier that can be written out, and any calls that put no other cycle in its place.
What it remembers of each phase is the last record, as it is unless there are restorations
after it, and everything shows that; no completion is ever removed, and a summary that is
offered is accepted exactly for the current phase. -/
theorem after_showsLastRecord {c : Cycle}
    (h₀ : (∃ (o : Occasion) (id : Value) (current : Phase) (completed : Table Phase Summary),
        create o.freshId id current completed = .ok c) ∨
      ∃ o payload, ofPayload o payload = .ok c)
    (hid : c.id.isWritable = true) (calls : List Call)
    (hcalls : ∀ call ∈ calls, ¬call.request.IsRestore) :
    (c.after calls).Shows (c.remembered calls) ∧
      ((∀ call ∈ calls, call.request.isReload = false) →
        (c.after calls).Shows fun p => (c.lastRecord calls p).map Prod.fst) ∧
      (∀ before, before <+: calls → ∀ p, (c.after before).isCompleted p = true →
        (c.after calls).isCompleted p = true) ∧
      ∀ o r s, Request.summary? o r = some s →
        (((c.after calls).perform o r).answer = .ok .done ↔ s.phase = (c.after calls).current) := by
  have hc := sound_of_create_or_ofPayload h₀
  have hlastId : (c.after calls).id.isWritable = true := by rwa [hc.id_after hcalls]
  have hshows : (c.after calls).Shows (c.remembered calls) := by
    have hremembered : (c.after calls).completed = c.remembered calls := by
      funext p
      exact completed_after hc hid hcalls p
    exact hremembered ▸ (hc.after calls).shows
  refine ⟨hshows, fun hreload => ?_, ?_, fun o r s hr => answer_eq_done_iff hlastId hr⟩
  · have hplain : c.remembered calls = fun p => (c.lastRecord calls p).map Prod.fst := by
      funext p
      exact remembered_of_no_reload hreload c p
    exact hplain ▸ hshows
  · rintro before ⟨rest, rfl⟩ p hp
    rw [after_append]
    exact (hc.after before).isCompleted_after
      (fun call hcall => hcalls call (List.mem_append_right _ hcall)) hp

/-- An earlier record that is replaced after going back, and a refused one. -/
theorem after_showsLastRecord_replaced :
    let o : Occasion := { now := .millennium, freshId := "cycle" }
    let summary (p : Phase) (text : String) : Summary := ⟨p, .str text, [], [], .millennium⟩
    let completed : Table Phase Summary :=
      ⟨[(.objectives, summary .objectives "kept"), (.issueRaising, summary .issueRaising "old")]⟩
    let requests : List Request :=
      [.record (summary .issueRaising "refused"), .moveTo .issueRaising,
        .record (summary .issueRaising "new"), .reload]
    let calls := requests.map (Call.mk o)
    ∃ c, create o.freshId .null .problemFrame completed = .ok c ∧ c.id.isWritable = true ∧
      (∀ call ∈ calls, ¬call.request.IsRestore) ∧
      (c.after calls).Shows (c.remembered calls) := by
  intro o summary completed requests calls
  have hcreate : create o.freshId .null .problemFrame completed = .ok _ :=
    create_eq_ok.mpr ⟨by decide, by simp [completed, summary]; decide, rfl⟩
  have hcalls : ∀ call ∈ calls, ¬call.request.IsRestore := by
    simp [calls, requests, Request.IsRestore]
  have hshows := after_showsLastRecord (.inl ⟨_, _, _, _, hcreate⟩) rfl calls hcalls
  exact ⟨_, hcreate, rfl, hcalls, hshows.1⟩

/-- A restoration may change what was recorded last: it completes a time that has no
offset. -/
theorem reload_completes_time :
    let o : Occasion := { now := .millennium, freshId := "cycle" }
    let time : Timestamp := ⟨⟨2026, 1, 15⟩, ⟨10, 0, 0, 0⟩, none, by decide⟩
    let s : Summary := ⟨.issueRaising, .str "raised", [], [], time⟩
    let calls : List Call := [⟨o, .record s⟩, ⟨o, .reload⟩]
    (∀ call ∈ calls, ¬call.request.IsRestore) ∧
      (start o .null).recorded calls = [(s, [⟨o, .reload⟩])] ∧
      ((start o .null).after calls).completed .issueRaising =
        some { s with completedAt := time.assumeUtc } ∧
      ((start o .null).after calls).completed .issueRaising ≠ some s := by
  intro o time s calls
  have hcalls : ∀ call ∈ calls, ¬call.request.IsRestore := by
    simp [calls, Request.IsRestore]
  have hfirst : (start o .null).recordedBy ⟨o, .record s⟩ = some s := by
    have hoffers : Request.summary? o (.record s) = some s := rfl
    rw [recordedBy_of_summary? rfl hoffers]
    rfl
  have hlast (c : Cycle) : c.recordedBy ⟨o, .reload⟩ = none := recordedBy_eq_none c rfl
  have hrecorded : (start o .null).recorded calls = [(s, [⟨o, .reload⟩])] := by
    simp [calls, recorded, hfirst, hlast]
  have hstored : ((start o .null).after calls).completed .issueRaising =
      some { s with completedAt := time.assumeUtc } := by
    rw [completed_after (sound_start o .null) rfl hcalls, remembered, lastRecord, hrecorded]
    rfl
  refine ⟨hcalls, hrecorded, hstored, fun h => ?_⟩
  rw [hstored] at h
  have htime := congrArg (fun stored => stored.map fun s => s.completedAt.offset) h
  cases htime

end Cycle

end DecisionCycle
