import DecisionCycle.Proofs.Cycle.Stored

/-!
What a call leaves alone. However a cycle was created or restored, and whatever was asked
of it since, its identifier is given, its current phase is a working phase, and every
summary is filed under its own working phase. A call that is refused leaves all of that
as it was. A move that is granted changes the current phase and nothing else, a completion
the summary of the current phase and nothing else, and a restoration gives the cycle that
its payload stores. Whoever only looks changes nothing, and so the identifier of a cycle
only ever changes by a restoration of another one.

Calls that fail leave everything as it was exactly if the identifier can be written out.
Else a move and a completion fail when they are made already.
-/

namespace DecisionCycle

def Request.IsLook : Request → Prop
  | .moveTo _ => False
  | .record _ => False
  | .recordPayload _ => False
  | .reload => False
  | .restore _ => False
  | _ => True

namespace Cycle

variable {o : Occasion} {c : Cycle} {r : Request}

/-! ### When a request is granted -/

theorem moveTo_granted_iff {p : Phase} :
    (∃ a, (c.perform o (.moveTo p)).answer = .ok a) ↔
      c.canMoveTo p = true ∧ c.id.isWritable = true := by
  rw [perform, Outcome.isOk_map]
  rcases c.moveTo_cases p with ⟨hp, h⟩ | ⟨hp, h⟩
  · simp [h, hp, Outcome.answer_telling_eq_ok (e := .moved _ _) rfl]
  · simp [h, hp, Outcome.answer_telling_eq_ok (e := .moveRefused _ _) rfl]

theorem record_granted_iff {s : Summary} (hr : r.summary? o = some s) :
    (∃ a, (c.perform o r).answer = .ok a) ↔
      s.phase = c.current ∧ c.id.isWritable = true := by
  rw [perform_of_summary? c hr, Outcome.isOk_map]
  rcases c.record_cases s with ⟨hs, h⟩ | ⟨hs, h⟩
  · simp [h, hs, Outcome.answer_telling_eq_ok (e := .recorded _ _) rfl]
  · simp [h, hs, Outcome.answer_telling_of_not_namesCycle (e := .recordRefused _ _) rfl]

theorem restore_granted_iff {v : Value} :
    (∃ a, (c.perform o (.restore v)).answer = .ok a) ↔ ∃ c', ofPayload o v = .ok c' := by
  rw [perform]
  rcases c.replaceBy_cases o v with ⟨c', hc', h⟩ | ⟨fault, hfault, h⟩
  · simp [h, hc', Outcome.ofAnswer]
  · simp [h, hfault, Outcome.ofFault]

/-! ### What it changes -/

theorem store_eq_update {s : Summary} (hs : s.phase = c.current) :
    c.store s = { c with completed := Function.update c.completed c.current (some s) } := by
  have hcompleted : (c.store s).completed = Function.update c.completed c.current (some s) := by
    funext p
    rw [completed_store, Function.update_apply, hs]
  exact congrArg (Cycle.mk c.id c.current) hcompleted

theorem cycle_perform_record {s : Summary} {a : Answer} (hr : r.summary? o = some s)
    (h : (c.perform o r).answer = .ok a) :
    (c.perform o r).cycle =
      { c with completed := Function.update c.completed c.current (some s) } := by
  have hs := ((record_granted_iff hr).mp ⟨a, h⟩).1
  rw [← store_eq_update hs, perform_of_summary? c hr]
  rcases c.record_cases s with ⟨-, h⟩ | ⟨hne, -⟩
  · simp [h]
  · exact absurd hs hne

theorem cycle_perform_look (hr : r.IsLook) : (c.perform o r).cycle = c := by
  rcases settles_perform o c r with ⟨-, hcycle⟩ | ⟨hgrants, -⟩
  · exact hcycle
  · cases r <;> first | exact hgrants | exact False.elim hr

/-- A call that fails has changed nothing, or has done all it was asked for. -/
theorem cycle_perform_failed {fault : Fault} (h : (c.perform o r).answer = .error fault) :
    (c.perform o r).cycle = c ∨ Grants o c r (c.perform o r).cycle ∧
      fault = .payload .tooManyDigits ∧ c.id.isWritable = false := by
  rcases settles_perform o c r with ⟨-, hcycle⟩ | ⟨hgrants, ⟨a, ha⟩ | ⟨hfault, hid⟩⟩
  · exact .inl hcycle
  · rw [h] at ha
    cases ha
  · rw [h] at hfault
    cases hfault
    exact .inr ⟨hgrants, rfl, hid⟩

theorem exists_store_ne (c : Cycle) : ∃ s : Summary, s.phase = c.current ∧ c.store s ≠ c := by
  let written (text : Text) : Summary := ⟨c.current, .str text, [], [], .millennium⟩
  have hstored (s : Summary) (hs : s.phase = c.current) (h : c.store s = c) :
      c.completed c.current = some s := by
    have hcurrent := congrFun (congrArg Cycle.completed h) c.current
    rwa [completed_store, if_pos hs.symm, eq_comm] at hcurrent
  -- of two summaries at most one is stored already
  by_cases h : c.store (written "") = c
  · refine ⟨written "-", rfl, fun h' => ?_⟩
    have hboth := (hstored _ rfl h).symm.trans (hstored _ rfl h')
    simp [written] at hboth
  · exact ⟨written "", rfl, h⟩

/-- The cycle is in order, and each call that succeeds changes what it is for and nothing
else. One that fails has changed nothing, except where the identifier cannot be written out:
then it may have done all it was asked for. -/
structure ChangesInOrder (c : Cycle) : Prop where
  working : c.current ∈ Phase.working
  filed {p : Phase} {s : Summary} : c.completed p = some s → p ∈ Phase.working ∧ s.phase = p
  identified : c.id.isGiven = true
  failed {o : Occasion} {r : Request} {fault : Fault} :
    (c.perform o r).answer = .error fault →
      (c.perform o r).cycle = c ∨ Grants o c r (c.perform o r).cycle ∧
        fault = .payload .tooManyDigits ∧ c.id.isWritable = false
  moves_iff {o : Occasion} {p : Phase} :
    (∃ a, (c.perform o (.moveTo p)).answer = .ok a) ↔
      c.canMoveTo p = true ∧ c.id.isWritable = true
  moved {o : Occasion} {p : Phase} {a : Answer} :
    (c.perform o (.moveTo p)).answer = .ok a →
      (c.perform o (.moveTo p)).cycle = { c with current := p }
  records_iff {o : Occasion} {r : Request} {s : Summary} : r.summary? o = some s →
    ((∃ a, (c.perform o r).answer = .ok a) ↔ s.phase = c.current ∧ c.id.isWritable = true)
  recorded {o : Occasion} {r : Request} {s : Summary} {a : Answer} :
    r.summary? o = some s → (c.perform o r).answer = .ok a →
      (c.perform o r).cycle =
        { c with completed := Function.update c.completed c.current (some s) }
  restores_iff {o : Occasion} {v : Value} :
    (∃ a, (c.perform o (.restore v)).answer = .ok a) ↔ ∃ c', ofPayload o v = .ok c'
  restored {o : Occasion} {v : Value} {a : Answer} :
    (c.perform o (.restore v)).answer = .ok a → ofPayload o v = .ok (c.perform o (.restore v)).cycle
  reloaded {o : Occasion} {a : Answer} :
    (c.perform o .reload).answer = .ok a → ofPayload o c.toPayload = .ok (c.perform o .reload).cycle
  looked {o : Occasion} {r : Request} : r.IsLook → (c.perform o r).cycle = c
  renamed {o : Occasion} {r : Request} : (c.perform o r).cycle.id ≠ c.id →
    ∃ v, r = .restore v ∧ ofPayload o v = .ok (c.perform o r).cycle

def IsAtomic (c : Cycle) : Prop :=
  ∀ ⦃o : Occasion⦄ ⦃r : Request⦄ ⦃fault : Fault⦄,
    (c.perform o r).answer = .error fault → (c.perform o r).cycle = c

theorem Sound.changesInOrder (hc : c.Sound) : c.ChangesInOrder where
  working := Phase.mem_working.mpr hc.working
  filed hp := ⟨Phase.mem_working.mpr (hc.filed hp).1, (hc.filed hp).2⟩
  identified := hc.identified
  failed := cycle_perform_failed
  moves_iff := moveTo_granted_iff
  moved h := (grants_of_ok h).2
  records_iff := record_granted_iff
  recorded := cycle_perform_record
  restores_iff := restore_granted_iff
  restored := grants_of_ok
  reloaded := grants_of_ok
  looked := cycle_perform_look
  renamed hid := (hc.id_step (step_perform _ c _)).resolve_left hid

theorem isAtomic_iff : c.IsAtomic ↔ c.id.isWritable = true := by
  refine ⟨fun h => ?_, fun hid _ _ _ => cycle_perform_of_error hid⟩
  by_contra hid
  rw [Bool.not_eq_true] at hid
  obtain ⟨s, hs, hne⟩ := c.exists_store_ne
  let o : Occasion := { now := .millennium, freshId := "cycle" }
  have hrecord := record_of_not_isWritable hid hs
  have hfails : (c.perform o (.record s)).answer = .error (.payload .tooManyDigits) := by
    rw [perform, hrecord]
    rfl
  have hcycle : (c.perform o (.record s)).cycle = c.store s := by
    rw [perform, Outcome.cycle_map, hrecord]
  exact hne (hcycle ▸ h hfails)

/-- **Every call changes only what it is for**, at any point of any run, and calls that
fail change nothing, exactly if the identifier of the cycle can be written out. -/
theorem after_changesInOrder {c : Cycle}
    (h₀ : (∃ (o : Occasion) (id : Value) (current : Phase) (completed : Table Phase Summary),
        create o.freshId id current completed = .ok c) ∨
      ∃ o payload, ofPayload o payload = .ok c) (calls : List Call) :
    (c.after calls).ChangesInOrder ∧
      ((c.after calls).IsAtomic ↔ (c.after calls).id.isWritable = true) :=
  ⟨((sound_of_create_or_ofPayload h₀).after calls).changesInOrder, isAtomic_iff⟩

/-- A cycle that is restored with a gap, where a move, a completion and another restoration
are refused and then granted. -/
theorem after_changesInOrder_gap :
    let o : Occasion := { now := .millennium, freshId := "cycle" }
    let summary (phase : String) : Value := .dict [(.str "phase", .str phase)]
    let stored : Value := .dict
      [(.str "cycle_id", .str "old"), (.str "current_phase", .str "consequences"),
        (.str "completed", .dict [(.str "tradeoffs", summary "tradeoffs")])]
    let other : Value := .dict [(.str "cycle_id", .str "new")]
    let requests : List Request :=
      [.moveTo .tradeoffs, .recordPayload (summary "tradeoffs"), .restore .null,
        .moveTo .problemFrame, .recordPayload (summary "problem_frame"), .restore other]
    let calls := requests.map (Call.mk o)
    ∃ c, ofPayload o stored = .ok c ∧ c.completedPhases = [.tradeoffs] ∧
      (c.after (calls.take 5)).completedPhases = [.problemFrame, .tradeoffs] ∧
      (c.after calls).completedPhases = [] ∧ (c.after calls).ChangesInOrder ∧
      (c.after calls).IsAtomic := by
  intro o summary stored other requests calls
  have hphases : (ofPayload o stored).toOption.map (fun c =>
      (c.completedPhases, (c.after (calls.take 5)).completedPhases,
        (c.after calls).completedPhases, (c.after calls).id.isWritable)) =
      some ([.tradeoffs], [.problemFrame, .tradeoffs], [], true) := by decide +kernel
  cases h : ofPayload o stored with
  | error fault =>
      rw [h] at hphases
      cases hphases
  | ok c =>
      rw [h] at hphases
      have hlists := Prod.mk.inj (Option.some.inj hphases)
      have hlater := Prod.mk.inj hlists.2
      have hlast := Prod.mk.inj hlater.2
      obtain ⟨horder, hatomic⟩ := after_changesInOrder (.inr ⟨o, stored, h⟩) calls
      exact ⟨c, rfl, hlists.1, hlater.1, hlast.1, horder, hatomic.mpr hlast.2⟩

/-- A move to an earlier phase that fails, and the cycle has moved there. -/
theorem moveTo_failsMoved :
    let o : Occasion := { now := .millennium, freshId := "cycle" }
    let stored : Value := .dict
      [(.str "cycle_id", .longInt), (.str "current_phase", .str Phase.objectives.key)]
    let back : Request := .moveTo .issueRaising
    let c := unnamed .objectives
    ofPayload o stored = .ok c ∧ c.current = .objectives ∧
      (c.perform o back).answer = .error (.payload .tooManyDigits) ∧
      (c.perform o back).cycle.current = .issueRaising ∧ ¬c.IsAtomic := by
  intro o stored back c
  have hanswer : (c.perform o back).answer = .error (.payload .tooManyDigits) := by
    rw [perform_moveTo_unnamed]
  have hcurrent : (c.perform o back).cycle.current = .issueRaising := by
    rw [perform_moveTo_unnamed, current_unnamed]
  refine ⟨ofPayload_unnamed o (by decide), rfl, hanswer, hcurrent, fun h => ?_⟩
  rw [h hanswer] at hcurrent
  cases hcurrent

end Cycle

end DecisionCycle
