import DecisionCycle.Cycle.Run
import DecisionCycle.Proofs.Payload
import Mathlib.Tactic

/-!
What a request can do to a cycle, said once. Most requests leave the cycle as it
is, and so does a refusal. A move changes the current phase, a completion
changes what is stored for the current phase, and a restoration puts another
cycle in its place. Every invariant of runs is shown on these cases, and carried
over a whole run by induction on its calls.

Not every call that fails is a refusal. A move or a completion is told to the log
after it was made, and where the identifier of the cycle cannot be written out the
call fails there.

The first invariant is `Cycle.Sound`: the cycle has an identifier, its current
phase is a working phase, and each stored summary is filed under its own phase,
which is a working phase too. It holds of whatever is created or restored.
-/

namespace DecisionCycle

/-- The request puts a foreign cycle in the place of this one. -/
def Request.IsRestore : Request → Prop
  | .restore _ => True
  | _ => False

/-- The summary that a request offers for the current phase. -/
def Request.summary? (o : Occasion) : Request → Option Summary
  | .record s => some s
  | .recordPayload payload => (Summary.ofPayload o payload).toOption
  | _ => none

theorem Request.summary?_recordPayload {o : Occasion} {v : Value} {s : Summary} :
    (recordPayload v).summary? o = some s ↔ Summary.ofPayload o v = .ok s := by
  cases h : Summary.ofPayload o v <;> simp [summary?, h, Except.toOption]

namespace Cycle

@[simp] theorem id_store (c : Cycle) (s : Summary) : (c.store s).id = c.id := rfl

@[simp] theorem current_store (c : Cycle) (s : Summary) : (c.store s).current = c.current := rfl

@[simp] theorem completed_store (c : Cycle) (s : Summary) (p : Phase) :
    (c.store s).completed p = if p = s.phase then some s else c.completed p := rfl

/-! ### The cases -/

inductive Step (o : Occasion) (c : Cycle) : Request → Cycle → Prop where
  | stay (r : Request) : Step o c r c
  | move {p : Phase} (h : c.canMoveTo p = true) : Step o c (.moveTo p) { c with current := p }
  | store {r : Request} {s : Summary} (hr : r.summary? o = some s) (h : s.phase = c.current) :
      Step o c r (c.store s)
  | reload {c' : Cycle} (h : ofPayload o c.toPayload = .ok c') : Step o c .reload c'
  | restore {v : Value} {c' : Cycle} (h : ofPayload o v = .ok c') : Step o c (.restore v) c'

/-- What becomes of a cycle when a request is granted. A request that only looks at a
cycle leaves it as it is. -/
def Grants (o : Occasion) (c : Cycle) : Request → Cycle → Prop
  | .moveTo p, c' => c.canMoveTo p = true ∧ c' = { c with current := p }
  | .record s, c' => s.phase = c.current ∧ c' = c.store s
  | .recordPayload v, c' =>
      ∃ s, Summary.ofPayload o v = .ok s ∧ s.phase = c.current ∧ c' = c.store s
  | .reload, c' => ofPayload o c.toPayload = .ok c'
  | .restore v, c' => ofPayload o v = .ok c'
  | _, c' => c' = c

theorem step_of_grants {o : Occasion} {c c' : Cycle} {r : Request} (h : Grants o c r c') :
    Step o c r c' := by
  cases r with
  | moveTo p =>
      obtain ⟨hp, rfl⟩ := h
      exact .move hp
  | record s =>
      obtain ⟨hs, rfl⟩ := h
      exact .store rfl hs
  | recordPayload v =>
      obtain ⟨s, hv, hs, rfl⟩ := h
      exact .store (Request.summary?_recordPayload.mpr hv) hs
  | reload => exact .reload h
  | restore v => exact .restore h
  | _ =>
      cases h
      exact .stay _

theorem cycle_route (c : Cycle) (i : Intent) : (c.route i).cycle = c := by
  unfold route
  split
  case h_1 => split <;> simp
  case h_2 => split <;> simp
  case h_3 => rfl

theorem moveTo_cases (c : Cycle) (p : Phase) :
    (c.canMoveTo p = true ∧
        c.moveTo p = .telling (.moved c.current p) { c with current := p } (.ok ())) ∨
      (c.canMoveTo p = false ∧
        c.moveTo p = .telling (.moveRefused c.current p) c (.error (c.refusal p))) := by
  unfold moveTo
  split
  case isTrue h => exact .inl ⟨h, rfl⟩
  case isFalse h => exact .inr ⟨eq_false_of_ne_true h, rfl⟩

/-- A cycle whose identifier cannot be written out is moved all the same, and then the
call fails. -/
theorem moveTo_of_not_isWritable {c : Cycle} (hid : c.id.isWritable = false) (p : Phase) :
    c.moveTo p =
      { answer := .error (.payload .tooManyDigits)
        cycle := if c.canMoveTo p then { c with current := p } else c
        notes := [] } := by
  unfold moveTo
  split
  case isTrue =>
    exact Outcome.telling_of_namesCycle (c := { c with current := p }) hid
      (e := .moved c.current p) rfl _
  case isFalse =>
    exact Outcome.telling_of_namesCycle hid (e := .moveRefused c.current p) rfl _

theorem record_cases (c : Cycle) (s : Summary) :
    (s.phase = c.current ∧
        c.record s =
          .telling (.recorded s.phase (c.isCompleted s.phase)) (c.store s) (.ok ())) ∨
      (s.phase ≠ c.current ∧
        c.record s = .telling (.recordRefused s.phase c.current) c
          (.error (.cycle (.invalidState (.outOfTurn s.phase c.current))))) := by
  unfold record
  split
  case isTrue h => exact .inl ⟨h, rfl⟩
  case isFalse h => exact .inr ⟨h, rfl⟩

theorem record_of_not_isWritable {c : Cycle} (hid : c.id.isWritable = false) {s : Summary}
    (hs : s.phase = c.current) :
    c.record s =
      { answer := .error (.payload .tooManyDigits), cycle := c.store s, notes := [] } := by
  rw [record, if_pos hs]
  exact Outcome.telling_of_namesCycle (c := c.store s) hid (e := .recorded _ _) rfl _

theorem replaceBy_cases (c : Cycle) (o : Occasion) (v : Value) :
    (∃ c', ofPayload o v = .ok c' ∧ c.replaceBy o v = .ofAnswer c' (.cycle c')) ∨
      ∃ fault, ofPayload o v = .error fault ∧ c.replaceBy o v = .ofFault c fault := by
  unfold replaceBy
  cases ofPayload o v with
  | ok c' => exact .inl ⟨c', rfl, rfl⟩
  | error fault => exact .inr ⟨fault, rfl, rfl⟩

theorem perform_of_summary? {o : Occasion} {r : Request} {s : Summary} (c : Cycle)
    (hr : r.summary? o = some s) : c.perform o r = (c.record s).map fun _ => .done := by
  cases r with
  | record => rw [← Option.some.inj hr, perform]
  | recordPayload v => rw [perform, Request.summary?_recordPayload.mp hr]
  | _ => cases hr

/-- An outcome is a refusal that leaves the cycle as it was, or what is granted. To what
is granted the answer may be missing, if the identifier cannot be written out. -/
def Settles (o : Occasion) (c : Cycle) (r : Request) (out : Outcome Answer) : Prop :=
  (∃ fault, out.answer = .error fault) ∧ out.cycle = c ∨
    Grants o c r out.cycle ∧ ((∃ a, out.answer = .ok a) ∨
      out.answer = .error (.payload .tooManyDigits) ∧ c.id.isWritable = false)

section Settled

variable {o : Occasion} {r : Request}

theorem settles_refusal (c : Cycle) (e : Event) (fault : Fault) (f : Unit → Answer) :
    Settles o c r ((Outcome.telling e c (.error fault)).map f) := by
  refine .inl ⟨?_, by simp⟩
  rcases Outcome.answer_telling e c (.error fault : Except Fault Unit) with h | ⟨h, -⟩ <;>
    exact ⟨_, by rw [Outcome.map, h]; rfl⟩

theorem settles_grant {c c' : Cycle} (h : Grants o c r c') (hid : c'.id = c.id) (e : Event)
    (f : Unit → Answer) : Settles o c r ((Outcome.telling e c' (.ok ())).map f) := by
  refine .inr ⟨by simpa using h, ?_⟩
  rcases Outcome.answer_telling e c' (.ok () : Except Fault Unit) with h | ⟨h, hwritable⟩
  · exact .inl ⟨f (), by rw [Outcome.map, h]; rfl⟩
  · exact .inr ⟨by rw [Outcome.map, h]; rfl, hid ▸ hwritable⟩

theorem settles_record (c : Cycle) {s : Summary}
    (hgrants : s.phase = c.current → Grants o c r (c.store s)) :
    Settles o c r ((c.record s).map fun _ => .done) := by
  rcases c.record_cases s with ⟨hs, h⟩ | ⟨-, h⟩ <;> rw [h]
  · exact settles_grant (hgrants hs) rfl _ _
  · exact settles_refusal c _ _ _

theorem settles_replaceBy (c : Cycle) {v : Value}
    (hgrants : ∀ c', ofPayload o v = .ok c' → Grants o c r c') :
    Settles o c r (c.replaceBy o v) := by
  rcases c.replaceBy_cases o v with ⟨c', hc', h⟩ | ⟨fault, -, h⟩ <;> rw [h]
  · exact .inr ⟨hgrants c' hc', .inl ⟨_, rfl⟩⟩
  · exact .inl ⟨⟨_, rfl⟩, rfl⟩

end Settled

theorem settles_perform (o : Occasion) (c : Cycle) (r : Request) :
    Settles o c r (c.perform o r) := by
  cases r with
  | route i =>
      have hcycle : (c.perform o (.route i)).cycle = c := cycle_route c i
      cases h : (c.perform o (.route i)).answer with
      | error fault => exact .inl ⟨⟨fault, h⟩, hcycle⟩
      | ok a => exact .inr ⟨hcycle, .inl ⟨a, h⟩⟩
  | moveTo p =>
      change Settles o c _ ((c.moveTo p).map fun _ => .done)
      rcases c.moveTo_cases p with ⟨hp, h⟩ | ⟨-, h⟩ <;> rw [h]
      · have hgrants : Grants o c (.moveTo p) { c with current := p } := ⟨hp, rfl⟩
        exact settles_grant hgrants rfl _ _
      · exact settles_refusal c _ _ _
  | record s => exact settles_record c fun hs => ⟨hs, rfl⟩
  | recordPayload v =>
      cases hv : Summary.ofPayload o v with
      | ok s =>
          rw [perform_of_summary? c (Request.summary?_recordPayload.mpr hv)]
          exact settles_record c fun hs => ⟨s, hv, hs, rfl⟩
      | error fault =>
          rw [perform, hv]
          exact .inl ⟨⟨_, rfl⟩, rfl⟩
  | reload => exact settles_replaceBy c fun c' hc' => hc'
  | restore v => exact settles_replaceBy c fun c' hc' => hc'
  -- all others are answered from the cycle as it is
  | _ => exact .inr ⟨rfl, .inl ⟨_, rfl⟩⟩

/-- A refusal leaves the cycle as it was, if the identifier can be written out. -/
theorem cycle_perform_of_error {o : Occasion} {c : Cycle} {r : Request} {fault : Fault}
    (hid : c.id.isWritable = true) (h : (c.perform o r).answer = .error fault) :
    (c.perform o r).cycle = c := by
  rcases settles_perform o c r with ⟨-, hcycle⟩ | ⟨-, ⟨a, ha⟩ | ⟨-, hlong⟩⟩
  · exact hcycle
  · rw [h] at ha
    cases ha
  · rw [hid] at hlong
    cases hlong

theorem grants_of_ok {o : Occasion} {c : Cycle} {r : Request} {a : Answer}
    (h : (c.perform o r).answer = .ok a) : Grants o c r (c.perform o r).cycle := by
  rcases settles_perform o c r with ⟨⟨fault, hfault⟩, -⟩ | ⟨hgrants, -⟩
  · rw [h] at hfault
    cases hfault
  · exact hgrants

theorem step_perform (o : Occasion) (c : Cycle) (r : Request) :
    Step o c r (c.perform o r).cycle := by
  rcases settles_perform o c r with ⟨-, hcycle⟩ | ⟨hgrants, -⟩
  · rw [hcycle]
    exact .stay r
  · exact step_of_grants hgrants

/-! ### Runs -/

@[simp] theorem after_nil (c : Cycle) : c.after [] = c := rfl

@[simp] theorem after_cons (c : Cycle) (call : Call) (calls : List Call) :
    c.after (call :: calls) = (c.perform call.occasion call.request).cycle.after calls := rfl

@[simp] theorem after_append (c : Cycle) (calls more : List Call) :
    c.after (calls ++ more) = (c.after calls).after more := by
  simp [after]

/-! ### Cycles that can exist -/

/-- What holds of every cycle that is created, restored or worked with. -/
structure Sound (c : Cycle) : Prop where
  identified : c.id.isGiven = true
  working : c.current.IsWorking
  filed {p : Phase} {s : Summary} : c.completed p = some s → p.IsWorking ∧ s.phase = p

theorem tableFault?_eq_none {completed : Table Phase Summary} :
    tableFault? completed = none ↔
      ∀ row ∈ completed.rows, row.1.IsWorking ∧ row.2.phase = row.1 := by
  rw [tableFault?, List.findSome?_eq_none_iff]
  refine forall₂_congr fun ⟨place, summary⟩ _ => ?_
  dsimp only
  split_ifs <;> simp_all

/-- A cycle is created exactly from a working phase and summaries that are filed
under their own working phases. -/
theorem create_eq_ok {freshId : Text} {id : Value} {current : Phase}
    {completed : Table Phase Summary} {c : Cycle} :
    create freshId id current completed = .ok c ↔
      current.IsWorking ∧ (∀ row ∈ completed.rows, row.1.IsWorking ∧ row.2.phase = row.1) ∧
        c = { id := id.orElse (.str freshId), current, completed := completed.get? } := by
  unfold create
  rw [← tableFault?_eq_none]
  split
  case isTrue h => simp [h]
  case isFalse h =>
    rw [not_not] at h
    cases tableFault? completed <;> simp [h, eq_comm]

theorem sound_of_create {o : Occasion} {id : Value} {current : Phase}
    {completed : Table Phase Summary} {c : Cycle}
    (h : create o.freshId id current completed = .ok c) : c.Sound := by
  obtain ⟨hcurrent, hrows, rfl⟩ := create_eq_ok.mp h
  refine ⟨Value.isGiven_orElse ?_, hcurrent, fun hp => hrows _ (Table.mem_of_get? hp)⟩
  simp [Value.isGiven, o.isGiven]

theorem ofPayload_eq_ok {o : Occasion} {v : Value} {c : Cycle} :
    ofPayload o v = .ok c ↔
      ∃ rawCurrent current stored entries completed id,
        v.field "current_phase" = .ok rawCurrent ∧ readCurrent rawCurrent = .ok current ∧
        v.field "completed" = .ok stored ∧ (stored.orElse (.dict [])).entries = .ok entries ∧
        readEntries o Table.empty entries = .ok completed ∧ v.field "cycle_id" = .ok id ∧
        create o.freshId id current completed = .ok c := by
  simp only [ofPayload, bind_eq_ok, mapError_eq_ok]
  constructor
  · rintro ⟨rawCurrent, h₁, current, h₂, stored, h₃, entries, h₄, completed, h₅, id, h₆, h₇⟩
    exact ⟨rawCurrent, current, stored, entries, completed, id, h₁, h₂, h₃, h₄, h₅, h₆, h₇⟩
  · rintro ⟨rawCurrent, current, stored, entries, completed, id, h₁, h₂, h₃, h₄, h₅, h₆, h₇⟩
    exact ⟨rawCurrent, h₁, current, h₂, stored, h₃, entries, h₄, completed, h₅, id, h₆, h₇⟩

theorem sound_of_ofPayload {o : Occasion} {v : Value} {c : Cycle}
    (h : ofPayload o v = .ok c) : c.Sound := by
  obtain ⟨_, _, _, _, _, _, _, _, _, _, _, _, hcreate⟩ := ofPayload_eq_ok.mp h
  exact sound_of_create hcreate

/-- A cycle that the log has no name for: its identifier cannot be written out. -/
def unnamed (p : Phase) : Cycle :=
  { id := .longInt, current := p, completed := fun _ => none }

@[simp] theorem current_unnamed (p : Phase) : (unnamed p).current = p := rfl

theorem isWritable_id_unnamed (p : Phase) : (unnamed p).id.isWritable = false :=
  Value.isWritable_longInt

/-- A cycle is restored with whatever identifier is stored, also with one that cannot be
written out. -/
theorem ofPayload_unnamed (o : Occasion) {p : Phase} (hp : p.IsWorking) :
    ofPayload o (.dict [(.str "cycle_id", .longInt), (.str "current_phase", .str p.key)]) =
      .ok (unnamed p) := by
  have hkey : (Value.str p.key).isGiven = true := by cases p <;> rfl
  refine ofPayload_eq_ok.mpr ⟨.str p.key, p, .null, [], Table.empty, .longInt, ?_, ?_, ?_, rfl, rfl,
    ?_, ?_⟩
  case refine_2 => rw [readCurrent, Value.orElse_of_isGiven hkey, Value.toPhase_key]; rfl
  case refine_5 =>
    refine create_eq_ok.mpr ⟨hp, by simp [Table.empty], ?_⟩
    rw [Value.orElse_of_isGiven Value.isGiven_longInt]
    rfl
  all_goals simp [Value.field, Value.fieldOr, Value.lookup?]

/-- Such a cycle goes back as it is asked to, and the call fails. -/
theorem perform_moveTo_unnamed (o : Occasion) :
    (unnamed .objectives).perform o (.moveTo .issueRaising) =
      { answer := .error (.payload .tooManyDigits), cycle := unnamed .issueRaising, notes := [] } := by
  have hback : (unnamed .objectives).canMoveTo .issueRaising = true := by decide
  rw [perform, moveTo_of_not_isWritable (isWritable_id_unnamed _), if_pos hback]
  rfl

theorem create_empty (o : Occasion) (id : Value) :
    create o.freshId id .issueRaising Table.empty = .ok (start o id) :=
  create_eq_ok.mpr ⟨by decide, by simp [Table.empty], rfl⟩

theorem sound_start (o : Occasion) (id : Value) : (start o id).Sound :=
  sound_of_create (create_empty o id)

theorem sound_of_create_or_ofPayload {c : Cycle}
    (hc : (∃ (o : Occasion) (id : Value) (current : Phase) (completed : Table Phase Summary),
        create o.freshId id current completed = .ok c) ∨
      ∃ o payload, ofPayload o payload = .ok c) : c.Sound := by
  rcases hc with ⟨o, id, current, completed, h⟩ | ⟨o, payload, h⟩
  · exact sound_of_create h
  · exact sound_of_ofPayload h

theorem isWorking_of_canMoveTo {c : Cycle} {p : Phase} (h : c.canMoveTo p = true) :
    p.IsWorking := by
  simp only [canMoveTo, Bool.and_eq_true, decide_eq_true_eq] at h
  exact h.1

theorem Sound.step {o : Occasion} {c c' : Cycle} {r : Request} (hc : c.Sound)
    (h : Step o c r c') : c'.Sound := by
  cases h with
  | stay => exact hc
  | move h => exact ⟨hc.identified, isWorking_of_canMoveTo h, hc.filed⟩
  | store _ h =>
      refine ⟨hc.identified, hc.working, fun {p s} hp => ?_⟩
      rw [completed_store] at hp
      split at hp
      case isTrue heq =>
        rw [← Option.some.inj hp, heq, h]
        exact ⟨hc.working, rfl⟩
      case isFalse => exact hc.filed hp
  | reload h => exact sound_of_ofPayload h
  | restore h => exact sound_of_ofPayload h

theorem Sound.after {c : Cycle} (hc : c.Sound) (calls : List Call) : (c.after calls).Sound := by
  induction calls generalizing c with
  | nil => exact hc
  | cons call calls ih => exact ih (hc.step (step_perform ..))

/-- What every allowed call keeps, starting from a sound cycle, is kept by any number
of them. -/
theorem Sound.after_of_step {I : Cycle → Prop} {allowed : Call → Prop}
    (hstep : ∀ {c c' : Cycle} {call : Call}, c.Sound → I c → allowed call →
      Step call.occasion c call.request c' → I c')
    {c : Cycle} (hc : c.Sound) (h : I c) {calls : List Call}
    (hcalls : ∀ call ∈ calls, allowed call) : I (c.after calls) := by
  induction calls generalizing c with
  | nil => exact h
  | cons call calls ih =>
      have hcall := step_perform call.occasion c call.request
      have hnext := hstep hc h (hcalls call List.mem_cons_self) hcall
      exact ih (hc.step hcall) hnext fun other hother =>
        hcalls other (List.mem_cons_of_mem _ hother)

end Cycle

end DecisionCycle
