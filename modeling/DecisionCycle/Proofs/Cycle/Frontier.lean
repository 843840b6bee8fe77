import DecisionCycle.Proofs.Cycle.Reachable
import DecisionCycle.Proofs.Cycle.Stored

/-!
How far a cycle has come. A new cycle has completed nothing, and every cycle that
grows out of it has completed its phases without a gap: there is a frontier `k`
such that the first `k` working phases are the completed ones, the current phase
is one of them or the next, and exactly these can be reached. No request moves
the frontier back, and only the completion of the phase at the frontier moves it
forward, by one. A cycle restored from a foreign payload may have gaps, so this
is a fact about histories and not about cycles.
-/

namespace DecisionCycle

namespace Cycle

/-- The first `k` working phases are completed and no others, and the current
phase does not lie beyond them by more than one. -/
structure HasFrontier (c : Cycle) (k : Nat) : Prop where
  bounded : k ≤ 8
  current_le : c.current.index ≤ k
  isCompleted_iff (p : Phase) : c.isCompleted p = true ↔ p.index < k

theorem HasFrontier.completedPhases {c : Cycle} {k : Nat} (h : c.HasFrontier k) :
    c.completedPhases = Phase.working.take k := by
  rw [Cycle.completedPhases, Phase.take_working]
  refine List.filter_congr fun p _ => ?_
  rw [Bool.eq_iff_iff, h.isCompleted_iff, decide_eq_true_iff]

theorem HasFrontier.headway_eq {c : Cycle} {k : Nat} (h : c.HasFrontier k) : c.headway = k := by
  refine c.isGreatest_headway.unique ⟨⟨h.bounded, fun p hp => ?_⟩, ?_⟩
  · exact (h.isCompleted_iff p).mpr (Phase.mem_take_working.mp hp).2
  · rintro n ⟨hn, hall⟩
    by_contra hlt
    have hlength : Phase.working.length = 8 := rfl
    -- the phase at the frontier lies among the first `n`, and is not completed
    obtain ⟨p, hp, hindex⟩ := Phase.exists_index_eq (by omega : k < 8)
    have hcompleted := hall p (Phase.mem_take_working.mpr ⟨hp, by omega⟩)
    rw [h.isCompleted_iff] at hcompleted
    omega

theorem HasFrontier.canMoveTo_iff {c : Cycle} {k : Nat} (h : c.HasFrontier k) {p : Phase} :
    c.canMoveTo p = true ↔ p.IsWorking ∧ p.index ≤ k := by
  rw [Cycle.canMoveTo_iff, h.headway_eq]
  have hcurrent := h.current_le
  exact and_congr_right fun _ => ⟨fun hp => by omega, .inr⟩

theorem HasFrontier.reachable {c : Cycle} {k : Nat} (h : c.HasFrontier k) :
    c.reachable = Phase.working.take (min (k + 1) 8) := by
  rw [Cycle.reachable, Phase.take_working]
  refine List.filter_congr fun p hp => ?_
  have hworking := Phase.isWorking_iff_index_lt.mp (Phase.mem_working.mp hp)
  rw [Bool.eq_iff_iff, h.canMoveTo_iff, Phase.isWorking_iff_index_lt, decide_eq_true_iff]
  omega

/-! ### Steps and runs -/

theorem hasFrontier_start (o : Occasion) (id : Value) : (start o id).HasFrontier 0 where
  bounded := by omega
  current_le := Nat.le_refl 0
  isCompleted_iff p := by simp [start, isCompleted]

theorem HasFrontier.reread {c : Cycle} {k : Nat} (h : c.HasFrontier k) :
    c.reread.HasFrontier k where
  bounded := h.bounded
  current_le := h.current_le
  isCompleted_iff p := by
    rw [← h.isCompleted_iff p]
    simp [isCompleted]

/-- A completion moves the frontier if it is that of the phase at the frontier,
and else only replaces a summary. -/
theorem HasFrontier.store {c : Cycle} {k : Nat} (h : c.HasFrontier k) (hc : c.Sound)
    {s : Summary} (hs : s.phase = c.current) :
    (c.store s).HasFrontier (if c.current.index = k then k + 1 else k) := by
  have hworking := Phase.isWorking_iff_index_lt.mp hc.working
  have hcurrent := h.current_le
  have hbounded := h.bounded
  refine ⟨by split <;> omega, by rw [current_store]; split <;> omega, fun p => ?_⟩
  by_cases hp : p = c.current
  · have hstored : (c.store s).isCompleted p = true := by simp [isCompleted, hp, hs]
    rw [hstored, hp]
    split <;> simp <;> omega
  · have hsame : (c.store s).isCompleted p = c.isCompleted p := by simp [isCompleted, hp, hs]
    have hindex : p.index ≠ c.current.index := fun heq => hp (Phase.index_injective heq)
    rw [hsame, h.isCompleted_iff]
    split <;> omega

/-- No request but a restoration moves the frontier back, and none moves it by
more than one. -/
theorem HasFrontier.step {o : Occasion} {c c' : Cycle} {r : Request} {k : Nat}
    (h : c.HasFrontier k) (hc : c.Sound) (hstep : Step o c r c') (hr : ¬r.IsRestore) :
    ∃ k', k ≤ k' ∧ k' ≤ k + 1 ∧ c'.HasFrontier k' := by
  cases hstep with
  | stay => exact ⟨k, le_rfl, by omega, h⟩
  | move hp =>
      have hle := (h.canMoveTo_iff.mp hp).2
      exact ⟨k, le_rfl, by omega, h.bounded, hle, h.isCompleted_iff⟩
  | store _ hs =>
      refine ⟨_, ?_, ?_, h.store hc hs⟩ <;> split <;> omega
  | reload hload =>
      rw [ofPayload_toPayload hc o] at hload
      cases hload
      exact ⟨k, le_rfl, by omega, h.reread⟩
  | restore => exact absurd trivial hr

theorem HasFrontier.length_completedPhases {c : Cycle} {k : Nat} (h : c.HasFrontier k) :
    c.completedPhases.length = k := by
  rw [h.completedPhases, List.length_take]
  exact min_eq_left h.bounded

theorem HasFrontier.unique {c : Cycle} {k k' : Nat} (h : c.HasFrontier k)
    (h' : c.HasFrontier k') : k = k' := by
  rw [← h.length_completedPhases, h'.length_completedPhases]

theorem HasFrontier.after {c : Cycle} {k : Nat} (h : c.HasFrontier k) (hc : c.Sound)
    {calls : List Call} (hcalls : ∀ call ∈ calls, ¬call.request.IsRestore) :
    ∃ k', (c.after calls).HasFrontier k' := by
  refine hc.after_of_step (I := fun c => ∃ k, c.HasFrontier k) ?_ ⟨k, h⟩ hcalls
  rintro c c' call hc ⟨k, h⟩ hcall hstep
  obtain ⟨k', -, -, h'⟩ := h.step hc hstep hcall
  exact ⟨k', h'⟩

/-- How a cycle advances in a run: after each number of calls there is a frontier
up to which everything is completed and beyond which nothing is, it never goes
back, and what was once current or reachable stays reachable. -/
structure AdvancesWithoutGap (c : Cycle) (calls : List Call) (frontier : Nat → Nat) : Prop where
  bounded (n : Nat) : frontier n ≤ 8
  completedPhases (n : Nat) :
    (c.after (calls.take n)).completedPhases = Phase.working.take (frontier n)
  current (n : Nat) : (c.after (calls.take n)).current.index ≤ frontier n
  reachable (n : Nat) :
    (c.after (calls.take n)).reachable = Phase.working.take (min (frontier n + 1) 8)
  grows (n : Nat) : frontier n ≤ frontier (n + 1) ∧ frontier (n + 1) ≤ frontier n + 1
  stays {m n : Nat} (hmn : m ≤ n) {p : Phase}
    (hp : p = (c.after (calls.take m)).current ∨ p ∈ (c.after (calls.take m)).reachable) :
    p ∈ (c.after (calls.take n)).reachable

/-- **Phases are completed in order.** Whatever is asked of a new cycle, and
however often it is stored and restored in between, it advances without a gap. -/
theorem start_advancesWithoutGap (o : Occasion) (id : Value) (calls : List Call)
    (hcalls : ∀ call ∈ calls, ¬call.request.IsRestore) :
    ∃ frontier, (start o id).AdvancesWithoutGap calls frontier := by
  have hstart := sound_start o id
  have hstate (n : Nat) : ∃ k, ((start o id).after (calls.take n)).HasFrontier k :=
    (hasFrontier_start o id).after hstart fun call hcall =>
      hcalls call (List.mem_of_mem_take hcall)
  choose frontier hfrontier using hstate
  -- each frontier was chosen on its own; they are compared by carrying one of them over
  -- a single call, since a cycle has only one
  have hgrows (n : Nat) : frontier n ≤ frontier (n + 1) ∧ frontier (n + 1) ≤ frontier n + 1 := by
    have hnext := hfrontier (n + 1)
    rw [List.take_add_one, after_append] at hnext
    cases hcall : calls[n]? with
    | none =>
        rw [hcall] at hnext
        have hsame := (hfrontier n).unique hnext
        omega
    | some call =>
        rw [hcall] at hnext
        obtain ⟨k, hle, hsucc, hk⟩ := (hfrontier n).step (hstart.after _)
          (step_perform call.occasion _ call.request)
          (hcalls call (List.mem_of_getElem? hcall))
        have hsame := hk.unique hnext
        omega
  refine ⟨frontier, fun n => (hfrontier n).bounded, fun n => (hfrontier n).completedPhases,
    fun n => (hfrontier n).current_le, fun n => (hfrontier n).reachable, hgrows, ?_⟩
  intro m n hmn p hp
  have hmono : frontier m ≤ frontier n := monotone_nat_of_le_succ (fun n => (hgrows n).1) hmn
  have hbelow : p.IsWorking ∧ p.index ≤ frontier m := by
    rcases hp with rfl | hp
    · exact ⟨(hstart.after _).working, (hfrontier m).current_le⟩
    · exact (hfrontier m).canMoveTo_iff.mp (List.mem_filter.mp hp).2
  exact List.mem_filter.mpr ⟨Phase.mem_working.mpr hbelow.1,
    (hfrontier n).canMoveTo_iff.mpr ⟨hbelow.1, hbelow.2.trans hmono⟩⟩

theorem start_advancesWithoutGap_thereAndBack :
    let o : Occasion := { now := .millennium, freshId := "cycle" }
    let payload : Value := .dict [(.str "phase", .str "issue_raising")]
    let requests : List Request :=
      [.moveTo .problemFrame, .recordPayload payload, .moveTo .problemFrame,
        .moveTo .issueRaising, .reload, .moveTo .problemFrame]
    let calls := requests.map (Call.mk o)
    (∀ call ∈ calls, ¬call.request.IsRestore) ∧
      ∃ frontier, (start o .null).AdvancesWithoutGap calls frontier := by
  intro o payload requests calls
  have hcalls : ∀ call ∈ calls, ¬call.request.IsRestore := by
    simp [calls, requests, Request.IsRestore]
  exact ⟨hcalls, start_advancesWithoutGap o .null calls hcalls⟩

end Cycle

end DecisionCycle
