import DecisionCycle.Proofs.Cycle.Step
import DecisionCycle.Proofs.Phase

/-!
Which phases a cycle can go to. Two bounds compete. Everything up to the current phase
can be reached, since going back is free; and so can the phase after those that are
completed from the first one on without a gap, since going forward needs every phase
before. The phases that can be reached are therefore a first part of the order, and the
farther bound says how long it is.

A cycle has three ways to tell this: the list of the phases that can be reached, a move,
and a route to a phase. They agree in every cycle, also in one that was restored with
gaps and stands beyond them. Only the route to the next phase asks nothing of the phases
before, so what it names need not be open to a move.

There is one condition. A move and a refusal are told to the log with the identifier of
the cycle, and where that cannot be written out the call fails for this reason.
-/

namespace DecisionCycle

theorem all_take_iff {α : Type} {p : α → Bool} {l : List α} {n : Nat} (hn : n ≤ l.length) :
    (l.take n).all p = true ↔ n ≤ (l.takeWhile p).length := by
  induction l generalizing n with
  | nil =>
      have hzero : n = 0 := Nat.le_zero.mp hn
      simp [hzero]
  | cons a l ih =>
      cases n with
      | zero => simp
      | succ n =>
          have hrest := ih (Nat.le_of_succ_le_succ hn)
          cases ha : p a <;> simp [ha, hrest]

namespace Cycle

variable {c : Cycle} {p s : Phase}

/-! ### How far the completed phases go without a gap -/

/-- How many working phases are completed, from the first one up to the first that is not. -/
def headway (c : Cycle) : Nat :=
  (Phase.working.takeWhile c.isCompleted).length

theorem headway_le (c : Cycle) : c.headway ≤ Phase.working.length :=
  (List.takeWhile_sublist _).length_le

theorem all_completed_iff {n : Nat} (hn : n ≤ Phase.working.length) :
    (Phase.working.take n).all c.isCompleted = true ↔ n ≤ c.headway :=
  all_take_iff hn

theorem isGreatest_headway (c : Cycle) :
    IsGreatest {n | n ≤ Phase.working.length ∧
      ∀ p ∈ Phase.working.take n, c.isCompleted p = true} c.headway := by
  constructor
  · exact ⟨c.headway_le, List.all_eq_true.mp ((all_completed_iff c.headway_le).mpr le_rfl)⟩
  · rintro n ⟨hn, hall⟩
    exact (all_completed_iff hn).mp (List.all_eq_true.mpr hall)

/-! ### The phases that can be reached -/

theorem canMoveTo_iff :
    c.canMoveTo p = true ↔ p.IsWorking ∧ (p.index ≤ c.current.index ∨ p.index ≤ c.headway) := by
  simp only [canMoveTo, Bool.and_eq_true, Bool.or_eq_true, decide_eq_true_iff]
  refine and_congr_right fun hp => ?_
  rw [all_completed_iff (Phase.isWorking_iff_index_lt.mp hp).le]

theorem mem_reachable_iff : p ∈ c.reachable ↔ c.canMoveTo p = true := by
  rw [reachable, List.mem_filter, Phase.mem_working]
  exact and_iff_right_of_imp isWorking_of_canMoveTo

theorem reachable_eq_take (c : Cycle) :
    c.reachable =
      Phase.working.take (max (c.current.index + 1) (min (c.headway + 1) 8)) := by
  rw [reachable, Phase.take_working]
  refine List.filter_congr fun p hp => ?_
  have hindex := Phase.isWorking_iff_index_lt.mp (Phase.mem_working.mp hp)
  rw [Bool.eq_iff_iff, canMoveTo_iff, Phase.isWorking_iff_index_lt, decide_eq_true_iff]
  omega

/-! ### Moves and routes -/

theorem moveTo_eq_ok_iff :
    (c.moveTo p).answer = .ok () ↔ p ∈ c.reachable ∧ c.id.isWritable = true := by
  rw [mem_reachable_iff]
  rcases c.moveTo_cases p with ⟨hp, h⟩ | ⟨hp, h⟩ <;>
    rw [h, Outcome.answer_telling_eq_ok rfl] <;> simp [hp]

theorem route_navigate (c : Cycle) (p : Phase) :
    c.route (.navigate p) =
      if p ∈ c.reachable then .ofAnswer c p
      else .telling (.moveRefused c.current p) c (.error (c.refusal p)) := by
  simp only [mem_reachable_iff]
  rfl

theorem navigate_eq_ok_iff {q : Phase} :
    (c.route (.navigate p)).answer = .ok q ↔ p = q ∧ p ∈ c.reachable := by
  rw [route_navigate]
  split
  case isTrue h => simp [Outcome.ofAnswer, h]
  case isFalse h =>
    rw [Outcome.answer_telling_eq_ok rfl]
    simp [h]

theorem refused_of_not_mem_reachable (hid : c.id.isWritable = true) (hp : p ∉ c.reachable) :
    (c.moveTo p).answer = .error (.cycle (.invalidTransition c.current p c.reachable)) ∧
      (c.route (.navigate p)).answer =
        .error (.cycle (.invalidTransition c.current p c.reachable)) := by
  constructor
  · rcases c.moveTo_cases p with ⟨h, -⟩ | ⟨-, h⟩
    · exact absurd (mem_reachable_iff.mpr h) hp
    · rw [h, Outcome.telling_of_isWritable hid]
      rfl
  · rw [route_navigate, if_neg hp, Outcome.telling_of_isWritable hid]
    rfl

theorem next?_eq_some_iff : c.next? = some s ↔ s.IsWorking ∧ s.index = c.current.index + 1 :=
  Phase.getElem?_working_eq_some_iff

theorem next?_eq_none_iff (hc : c.current.IsWorking) :
    c.next? = none ↔ Phase.working.getLast? = some c.current := by
  have hindex := Phase.isWorking_iff_index_lt.mp hc
  have hlength : Phase.working.length = 8 := rfl
  rw [next?, List.getElem?_eq_none_iff, List.getLast?_eq_getElem?,
    Phase.getElem?_working_eq_some_iff, and_iff_right hc]
  omega

/-- Where there is a next phase, a move to it needs all phases up to the current one. -/
theorem canMoveTo_next_iff (hs : c.next? = some s) :
    c.canMoveTo s = true ↔
      ∀ p ∈ Phase.working, p.index ≤ c.current.index → c.isCompleted p = true := by
  obtain ⟨hworking, hindex⟩ := next?_eq_some_iff.mp hs
  have hbound := Phase.isWorking_iff_index_lt.mp hworking
  -- the next phase lies ahead, so only the second bound can let it in
  have hahead : ¬s.index ≤ c.current.index := by omega
  rw [canMoveTo_iff, and_iff_right hworking, or_iff_right hahead,
    ← all_completed_iff hbound.le, List.all_eq_true]
  refine forall_congr' fun p => ?_
  rw [Phase.mem_take_working, Phase.mem_working, and_imp, hindex, Nat.lt_succ_iff]

theorem route_complete (c : Cycle) (named : Option Phase) :
    c.route (.errand .complete named) =
      match c.next? with
      | some s => .ofAnswer c s
      | none => .telling (.finished c.current) c (.error (.cycle (.cycleCompleted c.current))) :=
  rfl

theorem complete_eq_ok_iff {named : Option Phase} :
    (c.route (.errand .complete named)).answer = .ok s ↔ c.next? = some s := by
  rw [route_complete]
  split
  case h_1 h => simp [Outcome.ofAnswer, h]
  case h_2 h =>
    rw [Outcome.answer_telling_eq_ok rfl]
    simp [h]

theorem complete_eq_error_iff (hid : c.id.isWritable = true) {named : Option Phase}
    {fault : Fault} :
    (c.route (.errand .complete named)).answer = .error fault ↔
      fault = .cycle (.cycleCompleted c.current) ∧ c.next? = none := by
  rw [route_complete]
  split
  case h_1 h => simp [Outcome.ofAnswer, h]
  case h_2 h => simp [Outcome.telling_of_isWritable hid, h, eq_comm]

/-- The phases that can be reached are a first part of the order, and a route goes to
these phases and to no others. -/
structure RoutesInOrder (c : Cycle) : Prop where
  longest : IsGreatest {n | n ≤ Phase.working.length ∧
    ∀ p ∈ Phase.working.take n, c.isCompleted p = true} c.headway
  reachable :
    c.reachable = Phase.working.take (max (c.current.index + 1) (min (c.headway + 1) 8))
  navigate (p : Phase) : p ∈ c.reachable ↔ ∃ q, (c.route (.navigate p)).answer = .ok q
  arrives {p q : Phase} : (c.route (.navigate p)).answer = .ok q → q = p
  successor {named : Option Phase} {s : Phase} :
    (c.route (.errand .complete named)).answer = .ok s ↔
      s ∈ Phase.working ∧ s.index = c.current.index + 1

structure MovesAgree (c : Cycle) : Prop extends RoutesInOrder c where
  move (p : Phase) : p ∈ c.reachable ↔ (c.moveTo p).answer = .ok ()
  refused {p : Phase} : p ∉ c.reachable →
    (c.moveTo p).answer = .error (.cycle (.invalidTransition c.current p c.reachable)) ∧
      (c.route (.navigate p)).answer =
        .error (.cycle (.invalidTransition c.current p c.reachable))
  finished {named : Option Phase} {fault : Fault} :
    (c.route (.errand .complete named)).answer = .error fault ↔
      fault = .cycle (.cycleCompleted c.current) ∧ Phase.working.getLast? = some c.current
  follows {named : Option Phase} {s : Phase} :
    (c.route (.errand .complete named)).answer = .ok s →
      ((c.moveTo s).answer = .ok () ↔
        ∀ p ∈ Phase.working, p.index ≤ c.current.index → c.isCompleted p = true)

theorem routesInOrder (c : Cycle) : c.RoutesInOrder where
  longest := isGreatest_headway c
  reachable := reachable_eq_take c
  navigate := by simp [navigate_eq_ok_iff]
  arrives h := (navigate_eq_ok_iff.mp h).1.symm
  successor {named s} := by rw [complete_eq_ok_iff, next?_eq_some_iff, Phase.mem_working]

theorem Sound.movesAgree (hc : c.Sound) (hid : c.id.isWritable = true) : c.MovesAgree where
  toRoutesInOrder := c.routesInOrder
  move p := by rw [moveTo_eq_ok_iff, and_iff_left hid]
  refused := refused_of_not_mem_reachable hid
  finished {named fault} := by rw [complete_eq_error_iff hid, next?_eq_none_iff hc.working]
  follows h := by
    rw [moveTo_eq_ok_iff, and_iff_left hid, mem_reachable_iff,
      canMoveTo_next_iff (complete_eq_ok_iff.mp h)]

/-- **The ways to move agree.** At any point of any run of a cycle that was created or
restored, with gaps or without, the list of the phases that can be reached is a first
part of the order, and routes go to these phases and to no others. Moves do so exactly if
the identifier of the cycle can be written out, since every move is told to the log. -/
theorem after_movesAgree {c : Cycle}
    (h₀ : (∃ (o : Occasion) (id : Value) (current : Phase) (completed : Table Phase Summary),
        create o.freshId id current completed = .ok c) ∨
      ∃ o payload, ofPayload o payload = .ok c) (calls : List Call) :
    (c.after calls).RoutesInOrder ∧
      ((c.after calls).MovesAgree ↔ (c.after calls).id.isWritable = true) := by
  have hsound := (sound_of_create_or_ofPayload h₀).after calls
  refine ⟨routesInOrder _, fun h => ?_, hsound.movesAgree⟩
  -- the current phase can always be reached
  have hcurrent : (c.after calls).current ∈ (c.after calls).reachable :=
    mem_reachable_iff.mpr (canMoveTo_iff.mpr ⟨hsound.working, .inl le_rfl⟩)
  exact (moveTo_eq_ok_iff.mp ((h.move _).mp hcurrent)).2

/-- A cycle that stands beyond a gap. Once it has gone back to the gap it cannot return. -/
theorem after_movesAgree_beyondGap :
    let o : Occasion := { now := .millennium, freshId := "cycle" }
    let summary (p : Phase) : Phase × Summary := (p, ⟨p, .str "", [], [], .millennium⟩)
    let completed : Table Phase Summary :=
      ⟨[summary .tradeoffs, summary .problemFrame, summary .issueRaising]⟩
    let calls : List Call := [⟨o, .moveTo .objectives⟩, ⟨o, .moveTo .alternatives⟩]
    ∃ c, create o.freshId .null .alternatives completed = .ok c ∧ c.headway = 2 ∧
      c.reachable = Phase.working.take 4 ∧
      (c.after (calls.take 1)).reachable = Phase.working.take 3 ∧
      (c.after calls).id.isWritable = true ∧ (c.after calls).MovesAgree := by
  intro o summary completed calls
  have hcreate : create o.freshId .null .alternatives completed = .ok _ :=
    create_eq_ok.mpr ⟨by decide, by simp [completed, summary]; decide, rfl⟩
  have hmoves := (after_movesAgree (.inl ⟨_, _, _, _, hcreate⟩) calls).2
  exact ⟨_, hcreate, by decide, by decide, by decide, rfl, hmoves.mpr rfl⟩

/-- A cycle whose identifier cannot be written out cannot move to where it can go, and a
route to where it cannot go fails for the same reason. -/
theorem movesDisagree_unnamed :
    let o : Occasion := { now := .millennium, freshId := "cycle" }
    let stored : Value := .dict
      [(.str "cycle_id", .longInt), (.str "current_phase", .str Phase.objectives.key)]
    let c := unnamed .objectives
    ofPayload o stored = .ok c ∧ .issueRaising ∈ c.reachable ∧ .tradeoffs ∉ c.reachable ∧
      (c.moveTo .issueRaising).answer = .error (.payload .tooManyDigits) ∧
      (c.moveTo .tradeoffs).answer = .error (.payload .tooManyDigits) ∧
      (c.route (.navigate .tradeoffs)).answer = .error (.payload .tooManyDigits) ∧
      ¬c.MovesAgree := by
  intro o stored c
  have hid : c.id.isWritable = false := isWritable_id_unnamed _
  have hreachable : .issueRaising ∈ c.reachable := by decide
  have hbeyond : .tradeoffs ∉ c.reachable := by decide
  have hmove (p : Phase) : (c.moveTo p).answer = .error (.payload .tooManyDigits) := by
    rw [moveTo_of_not_isWritable hid]
  have hroute : (c.route (.navigate .tradeoffs)).answer = .error (.payload .tooManyDigits) := by
    rw [route_navigate, if_neg hbeyond, Outcome.telling_of_namesCycle hid rfl]
  refine ⟨ofPayload_unnamed o (by decide), hreachable, hbeyond, hmove _, hmove _, hroute,
    fun h => ?_⟩
  have hok := (h.move .issueRaising).mp hreachable
  rw [hmove] at hok
  cases hok

end Cycle

end DecisionCycle
