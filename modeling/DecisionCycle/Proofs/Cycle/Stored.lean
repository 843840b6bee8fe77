import DecisionCycle.Proofs.Cycle.Step
import DecisionCycle.Proofs.Payload
import DecisionCycle.Proofs.Summary.RoundTrip

/-!
Storing a cycle and restoring it from what was stored. The stored form names each
completed phase by its key and holds its summary as a payload, so restoring
enters one summary for each completed phase, as `Summary.reread` has it. Nothing
else changes, and restoring never fails on the stored form of a sound cycle.
-/

namespace DecisionCycle.Cycle

def reread (c : Cycle) : Cycle :=
  { c with completed := fun p => (c.completed p).map Summary.reread }

@[simp] theorem id_reread (c : Cycle) : c.reread.id = c.id := rfl

@[simp] theorem current_reread (c : Cycle) : c.reread.current = c.current := rfl

@[simp] theorem completed_reread (c : Cycle) (p : Phase) :
    c.reread.completed p = (c.completed p).map Summary.reread := rfl

theorem readEntry_stored (o : Occasion) (p : Phase) (s : Summary) :
    readEntry o (.str p.key) s.toPayload = .ok (p, s.reread) := by
  rw [readEntry, Value.toPhase_key, Summary.ofPayload_toPayload]
  rfl

def storedIn (c : Cycle) (phases : List Phase) : List (Value × Value) :=
  phases.filterMap fun p => (c.completed p).map fun s => (.str p.key, s.toPayload)

theorem readEntries_storedIn (o : Occasion) (c : Cycle) (phases : List Phase)
    (t : Table Phase Summary) :
    ∃ t', readEntries o t (c.storedIn phases) = .ok t' ∧
      (∀ q, t'.get? q = if q ∈ phases then (c.reread.completed q).or (t.get? q) else t.get? q) ∧
      ∀ row ∈ t'.rows, row ∈ t.rows ∨ c.reread.completed row.1 = some row.2 := by
  -- the table is any, since an entry is read into what the entries before it have left
  induction phases generalizing t with
  | nil => exact ⟨t, rfl, by simp, fun row hrow => .inl hrow⟩
  | cons p phases ih =>
      cases hp : c.completed p with
      | none =>
          obtain ⟨t', hread, hget, hrows⟩ := ih t
          refine ⟨t', by simpa [storedIn, hp] using hread, fun q => ?_, hrows⟩
          rw [hget q]
          by_cases hq : q = p <;> simp [hq, hp]
      | some s =>
          obtain ⟨t', hread, hget, hrows⟩ := ih (t.put p s.reread)
          have hstored : c.storedIn (p :: phases) =
              (.str p.key, s.toPayload) :: c.storedIn phases := by
            simp [storedIn, hp]
          refine ⟨t', ?_, fun q => ?_, fun row hrow => ?_⟩
          · rw [hstored, readEntries, readEntry_stored]
            exact hread
          · rw [hget q]
            by_cases hq : q = p <;> simp [hq, hp]
          · rcases hrows row hrow with h | h
            · rcases Table.mem_rows_put h with rfl | h
              · exact .inr (by simp [hp])
              · exact .inl h
            · exact .inr h

theorem Sound.reread {c : Cycle} (hc : c.Sound) : c.reread.Sound where
  identified := hc.identified
  working := hc.working
  filed := by
    intro p s hp
    obtain ⟨s, hs, rfl⟩ := Option.map_eq_some_iff.mp hp
    have hfiled := hc.filed hs
    exact hfiled

theorem readCurrent_key (p : Phase) : readCurrent (.str p.key) = .ok p := by
  have hgiven : (Value.str p.key).isGiven = true := by cases p <;> rfl
  rw [readCurrent, Value.orElse_of_isGiven hgiven, Value.toPhase_key]
  rfl

/-- **Storing and restoring.** What is stored of a sound cycle is restored, and
gives the cycle with its summaries reread. -/
theorem ofPayload_toPayload {c : Cycle} (hc : c.Sound) (o : Occasion) :
    ofPayload o c.toPayload = .ok c.reread := by
  obtain ⟨t, hread, hget, hrows⟩ := readEntries_storedIn o c Phase.working Table.empty
  have hcompleted : t.get? = c.reread.completed := by
    funext q
    rw [hget q, Table.get?_empty, Option.or_none]
    split
    case isTrue => rfl
    case isFalse hq =>
      cases hcq : c.reread.completed q with
      | none => rfl
      | some s => exact absurd (Phase.mem_working.mpr (hc.reread.filed hcq).1) hq
  have hcreate : create o.freshId c.id c.current t = .ok c.reread := by
    refine create_eq_ok.mpr ⟨hc.working, fun row hrow => ?_, ?_⟩
    · rcases hrows row hrow with h | h
      · simp [Table.empty] at h
      · exact hc.reread.filed h
    · rw [Value.orElse_of_isGiven hc.identified, hcompleted]
      rfl
  refine ofPayload_eq_ok.mpr ⟨_, c.current, _, _, t, c.id, ?_, readCurrent_key c.current, ?_,
    Value.entries_orElse c.storedSummaries, hread, ?_, hcreate⟩ <;>
  simp [toPayload, Value.field, Value.fieldOr, Value.lookup?]

theorem perform_reload {c : Cycle} (hc : c.Sound) (o : Occasion) :
    c.perform o .reload = .ofAnswer c.reread (.cycle c.reread) := by
  rw [perform, replaceBy, ofPayload_toPayload hc]

theorem Sound.id_step {o : Occasion} {c c' : Cycle} {r : Request} (hc : c.Sound)
    (hstep : Step o c r c') : c'.id = c.id ∨ ∃ v, r = .restore v ∧ ofPayload o v = .ok c' := by
  cases hstep with
  | stay => exact .inl rfl
  | move => exact .inl rfl
  | store => exact .inl rfl
  | reload hload =>
      rw [ofPayload_toPayload hc o] at hload
      cases hload
      exact .inl rfl
  | restore hload => exact .inr ⟨_, rfl, hload⟩

theorem Sound.id_eq_of_step {o : Occasion} {c c' : Cycle} {r : Request} (hc : c.Sound)
    (hstep : Step o c r c') (hr : ¬r.IsRestore) : c'.id = c.id := by
  rcases hc.id_step hstep with hid | ⟨v, rfl, -⟩
  · exact hid
  · exact absurd trivial hr

theorem Sound.id_after {c : Cycle} (hc : c.Sound) {calls : List Call}
    (hcalls : ∀ call ∈ calls, ¬call.request.IsRestore) : (c.after calls).id = c.id := by
  refine hc.after_of_step (I := fun c' => c'.id = c.id) ?_ rfl hcalls
  intro before after call hbefore hid hcall hstep
  rw [hbefore.id_eq_of_step hstep hcall, hid]

end DecisionCycle.Cycle
