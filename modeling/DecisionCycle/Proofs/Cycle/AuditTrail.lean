import DecisionCycle.Proofs.Cycle.Frame
import DecisionCycle.Proofs.Cycle.LastRecord
import DecisionCycle.Proofs.Cycle.Reachable

/-!
The log of a cycle as an audit trail. A call leaves at most one record: a note of what
was changed, a note that there is no phase to advance to, or an error where a move or a
completion was refused. Whoever only looks leaves none.

Two things can be read off the log of a whole run. The record of a completion says that an
earlier summary was replaced exactly if the phase had been completed before, at the beginning
or by an earlier call; and the moves that it tells of follow on one another, from the phase
at the beginning to the phase at the end. The second needs that the identifier of the cycle
can be written out, since otherwise a move is made and not told.
-/

namespace DecisionCycle

def Text.EndsIn (t ending : Text) : Prop :=
  ending.points <:+ t.points

theorem Text.points_append (s t : Text) : (s ++ t).points = s.points ++ t.points := rfl

/-- The request is to change the cycle: to move it, or to complete its current phase. -/
def Request.IsChange : Request → Prop
  | .moveTo _ => True
  | .record _ => True
  | .recordPayload _ => True
  | _ => False

theorem Request.isChange_of_summary? {o : Occasion} {r : Request} {s : Summary}
    (hr : r.summary? o = some s) : r.IsChange := by
  cases r <;> trivial

theorem Phase.eq_of_points_title {p q : Phase}
    (h : (Text.ofString p.title).points = (Text.ofString q.title).points) : p = q := by
  have htitle : p.title = q.title := Text.ofString_inj.mp (congrArg Text.mk h)
  revert htitle
  cases p <;> cases q <;> decide

namespace Event

/-- The phase that an event tells was left, and the one that took its place. -/
def move? : Event → Option (Phase × Phase)
  | moved source target => some (source, target)
  | _ => none

def replacedMark : Text :=
  " (replaced earlier summary)"

theorem endsIn_words_recorded (name : Text) (p : Phase) (replaced : Bool) :
    (words name (recorded p replaced)).EndsIn replacedMark ↔ replaced = true := by
  cases replaced with
  | true => exact iff_of_true (List.suffix_append ..) rfl
  | false =>
      refine iff_of_false ?_ Bool.false_ne_true
      rintro ⟨start, h⟩
      -- without the mark the record ends in a title, and no title ends in a bracket
      have hmark : replacedMark.points.getLast? = some (.char ')') := by decide
      have htitle : ∃ ch, (Text.ofString p.title).points.getLast? = some (.char ch) ∧ ch ≠ ')' := by
        cases p <;> exact ⟨_, rfl, by decide⟩
      obtain ⟨ch, hch, hne⟩ := htitle
      have hlast := congrArg List.getLast? h
      simp only [words, Text.points_append, List.getLast?_append, hmark, hch,
        Option.some_or] at hlast
      exact hne (CodePoint.char.inj (Option.some.inj hlast)).symm

theorem words_moved (name : Text) (p q : Phase) :
    (words name (moved p q)).points =
      (("Cycle " : Text) ++ name ++ (" transitioned: " : Text)).points ++
        ((Text.ofString p.title).points ++
          CodePoint.char ' ' :: CodePoint.char '-' :: CodePoint.char '>' :: CodePoint.char ' ' ::
            (Text.ofString q.title).points) := by
  simp only [words, Text.points_append, List.append_assoc]
  rfl

theorem words_of_message {id : Value} {e : Event} {message : Text}
    (h : e.message id = .ok message) : message = e.words id.text := by
  cases hid : id.isWritable with
  | true =>
      rw [e.message_of_isWritable hid] at h
      exact (Except.ok.inj h).symm
  | false => cases e <;> simp_all [Event.message, namesCycle, Value.written, words, Except.map]

def record (id : Value) (e : Event) : LogRecord :=
  { level := e.level, message := e.words id.text }

/-- The record of a move names the phases that it is from and to. -/
theorem moved_inj_of_record {id : Value} {p q p' q' : Phase}
    (h : record id (moved p q) = record id (moved p' q')) : p = p' ∧ q = q' := by
  have hmessage := congrArg (fun r => r.message.points) h
  simp only [record, words_moved] at hmessage
  have htitles := List.append_cancel_left hmessage
  -- no title has a dash in it, so the first dash is that of the arrow
  have hdash : ∀ p : Phase, ∀ x ∈ (Text.ofString p.title).points, x != .char '-' := by
    intro p
    cases p <;> decide
  have hsource := congrArg (List.takeWhile (· != CodePoint.char '-')) htitles
  rw [List.takeWhile_append_of_pos (hdash p), List.takeWhile_append_of_pos (hdash p')] at hsource
  obtain rfl : p = p' := Phase.eq_of_points_title (List.append_cancel_right hsource)
  have htarget := List.append_cancel_left htitles
  simp only [List.cons.injEq, true_and] at htarget
  exact ⟨rfl, Phase.eq_of_points_title htarget⟩

end Event

def Call.IsOwn (call : Call) : Prop :=
  ¬call.request.IsRestore ∧ call.request.isReload = false

namespace Cycle

variable {o : Occasion} {c c' : Cycle} {r : Request} {e : Event} {answer : Except Fault Answer}
  {out : Outcome Answer}

/-! ### What is told of a call -/

/-- What the log is told of a request, and what the cycle and the answer are by then. -/
inductive Tells (o : Occasion) (c : Cycle) :
    Request → Event → Cycle → Except Fault Answer → Prop where
  | moved (p : Phase) :
      Tells o c (.moveTo p) (.moved c.current p) { c with current := p } (.ok .done)
  | moveRefused {r : Request} {p : Phase} (hr : r = .moveTo p ∨ r = .route (.navigate p)) :
      Tells o c r (.moveRefused c.current p) c (.error (c.refusal p))
  | recorded {r : Request} {s : Summary} (hr : r.summary? o = some s) :
      Tells o c r (.recorded s.phase (c.isCompleted s.phase)) (c.store s) (.ok .done)
  | recordRefused {r : Request} {s : Summary} (hr : r.summary? o = some s) :
      Tells o c r (.recordRefused s.phase c.current) c
        (.error (.cycle (.invalidState (.outOfTurn s.phase c.current))))
  | finished (named : Option Phase) :
      Tells o c (.route (.errand .complete named)) (.finished c.current) c
        (.error (.cycle (.cycleCompleted c.current)))

inductive Logged (o : Occasion) (c : Cycle) (r : Request) : Outcome Answer → Prop where
  | told {e : Event} {c' : Cycle} {answer : Except Fault Answer} {message : Text}
      (h : Tells o c r e c' answer) (hmessage : e.message c.id = .ok message) :
      Logged o c r ⟨answer, c', [⟨e, message⟩]⟩
  | untold {e : Event} {c' : Cycle} {answer : Except Fault Answer} {cause : PayloadFault}
      (h : Tells o c r e c' answer) (hmessage : e.message c.id = .error cause) :
      Logged o c r ⟨.error (.payload cause), c', []⟩
  | unread {v : Value} (hr : r = .recordPayload v) (cause : PayloadFault) :
      Logged o c r ⟨.error (.payload cause), c, []⟩
  | looked (hr : r.IsLook) (a : Answer) : Logged o c r ⟨.ok a, c, []⟩

theorem Tells.id_eq (h : Tells o c r e c' answer) : c'.id = c.id := by
  cases h <;> rfl

theorem Tells.logged (h : Tells o c r e c' answer) : Logged o c r (.telling e c' answer) := by
  rw [Outcome.telling, h.id_eq]
  split
  case h_1 hmessage => exact .told h hmessage
  case h_2 hmessage => exact .untold h hmessage

theorem logged_route (o : Occasion) (c : Cycle) (i : Intent) :
    Logged o c (.route i) (c.perform o (.route i)) := by
  rw [perform]
  cases i with
  | navigate p =>
      rw [route]
      split
      · exact .looked (by trivial) _
      · rw [Outcome.map_telling]
        exact Tells.logged (.moveRefused (.inr rfl))
  | errand kind named =>
      cases kind with
      | complete =>
          rw [route]
          split
          · exact .looked (by trivial) _
          · rw [Outcome.map_telling]
            exact Tells.logged (.finished named)
      | _ => exact .looked (by trivial) _

theorem logged_record {s : Summary} (c : Cycle) (hr : r.summary? o = some s) :
    Logged o c r (c.perform o r) := by
  rw [perform_of_summary? c hr]
  rcases c.record_cases s with ⟨-, h⟩ | ⟨-, h⟩ <;> rw [h, Outcome.map_telling]
  · exact Tells.logged (.recorded hr)
  · exact Tells.logged (.recordRefused hr)

/-- Every request that puts no other cycle in the place of this one is logged in one of
these ways. -/
theorem logged_perform (o : Occasion) (c : Cycle) (hrestore : ¬r.IsRestore)
    (hreload : r.isReload = false) : Logged o c r (c.perform o r) := by
  cases r with
  | route i => exact logged_route o c i
  | moveTo p =>
      rw [perform]
      rcases c.moveTo_cases p with ⟨-, h⟩ | ⟨-, h⟩ <;> rw [h, Outcome.map_telling]
      · exact Tells.logged (.moved p)
      · exact Tells.logged (.moveRefused (.inl rfl))
  | record s => exact logged_record c rfl
  | recordPayload v =>
      cases hv : Summary.ofPayload o v with
      | ok s => exact logged_record c (Request.summary?_recordPayload.mpr hv)
      | error cause =>
          rw [perform, hv]
          exact .unread rfl cause
  | reload => cases hreload
  | restore v => exact absurd trivial hrestore
  | _ => exact .looked (by trivial) _

/-- A call that deserves a note: a change was made, or there is no phase to advance to. -/
def IsNoted (r : Request) (answer : Except Fault Answer) : Prop :=
  (r.IsChange ∧ ∃ a, answer = .ok a) ∨
    ∃ named p, r = .route (.errand .complete named) ∧
      answer = .error (.cycle (.cycleCompleted p))

/-- A move, or the completion of another phase than the current one, was refused. -/
def IsRebuffed (answer : Except Fault Answer) : Prop :=
  (∃ source target reachable,
      answer = .error (.cycle (.invalidTransition source target reachable))) ∨
    ∃ phase current, answer = .error (.cycle (.invalidState (.outOfTurn phase current)))

theorem not_isNoted_payload (cause : PayloadFault) : ¬IsNoted r (.error (.payload cause)) := by
  simp [IsNoted]

theorem not_isRebuffed_payload (cause : PayloadFault) :
    ¬IsRebuffed (.error (.payload cause)) := by
  simp [IsRebuffed]

theorem Tells.severity (h : Tells o c r e c' answer) :
    (e.level = .info ∧ IsNoted r answer ∧ ¬IsRebuffed answer) ∨
      (e.level = .error ∧ ¬IsNoted r answer ∧ IsRebuffed answer) := by
  cases h with
  | moved p => exact .inl ⟨rfl, .inl ⟨trivial, _, rfl⟩, by simp [IsRebuffed]⟩
  | recorded hr =>
      have hchange := Request.isChange_of_summary? hr
      exact .inl ⟨rfl, .inl ⟨hchange, _, rfl⟩, by simp [IsRebuffed]⟩
  | finished named => exact .inl ⟨rfl, .inr ⟨named, _, rfl, rfl⟩, by simp [IsRebuffed]⟩
  | moveRefused hr => exact .inr ⟨rfl, by simp [IsNoted, refusal], .inl ⟨_, _, _, rfl⟩⟩
  | recordRefused hr => exact .inr ⟨rfl, by simp [IsNoted], .inr ⟨_, _, rfl⟩⟩

section Logged

variable (h : Logged o c r out)

include h

theorem Logged.id_eq : out.cycle.id = c.id := by
  cases h with
  | told h _ => exact h.id_eq
  | untold h _ => exact h.id_eq
  | unread => rfl
  | looked => rfl

theorem Logged.records_eq : out.records = out.events.map (Event.record c.id) := by
  cases h with
  | told h hmessage =>
      rw [Event.words_of_message hmessage]
      rfl
  | _ => rfl

theorem Logged.severity :
    ((∃ text, out.records = [⟨.info, text⟩]) ∧ IsNoted r out.answer ∧ ¬IsRebuffed out.answer) ∨
      ((∃ text, out.records = [⟨.error, text⟩]) ∧
        ¬IsNoted r out.answer ∧ IsRebuffed out.answer) ∨
      (out.records = [] ∧ ¬IsNoted r out.answer ∧ ¬IsRebuffed out.answer) := by
  cases h with
  | told h hmessage =>
      rcases h.severity with ⟨hlevel, hrest⟩ | ⟨hlevel, hrest⟩
      · exact .inl ⟨⟨_, by rw [← hlevel]; rfl⟩, hrest⟩
      · exact .inr (.inl ⟨⟨_, by rw [← hlevel]; rfl⟩, hrest⟩)
  | untold h hmessage =>
      exact .inr (.inr ⟨rfl, not_isNoted_payload _, not_isRebuffed_payload _⟩)
  | unread hr cause =>
      exact .inr (.inr ⟨rfl, not_isNoted_payload _, not_isRebuffed_payload _⟩)
  | looked hr a =>
      have hchange : ¬r.IsChange := by
        cases r <;> first | exact not_false | exact False.elim hr
      exact .inr (.inr ⟨rfl, by simp [IsNoted, hchange], by simp [IsRebuffed]⟩)

theorem Logged.records_of_summary? {s : Summary} (hs : r.summary? o = some s)
    (hanswer : out.answer = .ok .done) :
    c.id.isWritable = true ∧
      out.records = [Event.record c.id (.recorded s.phase (c.isCompleted s.phase))] := by
  cases h with
  | told h hmessage =>
      cases h with
      | recorded hr =>
          cases hr.symm.trans hs
          rw [Event.words_of_message hmessage]
          refine ⟨?_, rfl⟩
          by_contra hid
          simp [Event.message, Event.namesCycle, Value.written, hid, Except.map] at hmessage
      | moved p => cases hs
      | _ => cases hanswer
  | looked hr a => cases r <;> first | exact False.elim hr | cases hs
  | _ => cases hanswer

variable (hid : c.id.isWritable = true)

include hid

theorem Logged.isCompleted_iff {p : Phase} :
    out.cycle.isCompleted p = true ↔ c.isCompleted p = true ∨
      ∃ s, r.summary? o = some s ∧ s.phase = p ∧ out.answer = .ok .done := by
  cases h with
  | told h hmessage =>
      cases h with
      | recorded hr =>
          rw [isCompleted, completed_store]
          split
          case isTrue hp => exact iff_of_true rfl (.inr ⟨_, hr, hp.symm, rfl⟩)
          case isFalse hp => simp [isCompleted, hr, Ne.symm hp]
      | moved q => simp [isCompleted, Request.summary?]
      | _ => simp
  | untold h hmessage =>
      rw [Event.message_of_isWritable hid] at hmessage
      cases hmessage
  | unread => simp
  | looked hr a =>
      have hnone : r.summary? o = none := by
        cases r <;> first | rfl | exact False.elim hr
      simp [hnone]

end Logged

/-- The log has one record at most of a call, and its severity says how the call ended. -/
structure Logs (c : Cycle) (call : Call) (out : Outcome Answer) : Prop where
  logged : Logged call.occasion c call.request out
  records_eq : out.records = out.events.map (Event.record c.id)
  atMostOne : out.records.length ≤ 1
  noted_iff : (∃ text, out.records = [⟨.info, text⟩]) ↔ IsNoted call.request out.answer
  rebuffed_iff : (∃ text, out.records = [⟨.error, text⟩]) ↔ IsRebuffed out.answer
  silent_iff : out.records = [] ↔ ¬IsNoted call.request out.answer ∧ ¬IsRebuffed out.answer

theorem Logged.logs {call : Call} (h : Logged call.occasion c call.request out) :
    c.Logs call out := by
  rcases h.severity with
    ⟨⟨text, hrecords⟩, hnoted, hrebuffed⟩ | ⟨⟨text, hrecords⟩, hnoted, hrebuffed⟩ |
      ⟨hrecords, hnoted, hrebuffed⟩
  all_goals
    constructor
    case logged => exact h
    case records_eq => exact h.records_eq
    all_goals simp [hrecords, hnoted, hrebuffed]

/-! ### The log of a run -/

/-- Moves that follow on one another, from a phase to a phase. -/
inductive Unbroken : Phase → List (Phase × Phase) → Phase → Prop where
  | nil (p : Phase) : Unbroken p [] p
  | cons {p q last : Phase} {moves : List (Phase × Phase)} :
      Unbroken q moves last → Unbroken p ((p, q) :: moves) last

theorem Unbroken.append {p q last : Phase} {moves more : List (Phase × Phase)}
    (h : Unbroken p moves q) (hmore : Unbroken q more last) :
    Unbroken p (moves ++ more) last := by
  induction h with
  | nil => exact hmore
  | cons _ ih => exact .cons (ih hmore)

theorem Logged.unbroken (h : Logged o c r out) (hid : c.id.isWritable = true) :
    Unbroken c.current (out.events.filterMap Event.move?) out.cycle.current := by
  cases h with
  | told h hmessage =>
      cases h with
      | moved p => exact .cons (.nil p)
      | _ => exact .nil c.current
  | untold h hmessage =>
      rw [Event.message_of_isWritable hid] at hmessage
      cases hmessage
  | _ => exact .nil c.current

/-- What the log is told of a run, in order. -/
def trail (c : Cycle) (calls : List Call) : List Event :=
  (c.run calls).flatMap Outcome.events

/-- Of the first `n` calls of a run, one completed the phase. -/
def CompletedWithin (c : Cycle) (calls : List Call) (n : Nat) (p : Phase) : Prop :=
  ∃ i < n, ∃ call out s, calls[i]? = some call ∧ (c.run calls)[i]? = some out ∧
    call.request.summary? call.occasion = some s ∧ s.phase = p ∧ out.answer = .ok .done

theorem completedWithin_succ_iff {calls : List Call} {n : Nat} {p : Phase} :
    c.CompletedWithin calls (n + 1) p ↔ c.CompletedWithin calls n p ∨
      ∃ call out s, calls[n]? = some call ∧ (c.run calls)[n]? = some out ∧
        call.request.summary? call.occasion = some s ∧ s.phase = p ∧ out.answer = .ok .done := by
  simp only [CompletedWithin, Nat.lt_succ_iff_lt_or_eq, or_and_right, exists_or, exists_eq_left]

@[simp] theorem length_run (c : Cycle) (calls : List Call) :
    (c.run calls).length = calls.length := by
  induction calls generalizing c with
  | nil => rfl
  | cons call calls ih => exact congrArg (· + 1) (ih _)

theorem getElem?_run (c : Cycle) (calls : List Call) (i : Nat) :
    (c.run calls)[i]? = calls[i]?.map fun call =>
      (c.after (calls.take i)).perform call.occasion call.request := by
  induction calls generalizing c i with
  | nil => rfl
  | cons call calls ih =>
      cases i with
      | zero => rfl
      | succ i => simpa [run] using ih _ i

section Runs

variable {calls : List Call} (hcalls : ∀ call ∈ calls, call.IsOwn)

include hcalls

theorem logged_run {i : Nat} {call : Call} (hcall : calls[i]? = some call)
    (hout : (c.run calls)[i]? = some out) :
    Logged call.occasion (c.after (calls.take i)) call.request out := by
  rw [getElem?_run, hcall, Option.map_some, Option.some.injEq] at hout
  obtain ⟨hrestore, hreload⟩ := hcalls call (List.mem_of_getElem? hcall)
  exact hout ▸ logged_perform call.occasion _ hrestore hreload

theorem id_after_own (c : Cycle) : (c.after calls).id = c.id := by
  induction calls generalizing c with
  | nil => rfl
  | cons call calls ih =>
      obtain ⟨hrestore, hreload⟩ := hcalls call List.mem_cons_self
      rw [after_cons, ih fun other hother => hcalls other (List.mem_cons_of_mem _ hother)]
      exact (logged_perform call.occasion c hrestore hreload).id_eq

theorem records_run (c : Cycle) :
    (c.run calls).flatMap Outcome.records = (c.trail calls).map (Event.record c.id) := by
  induction calls generalizing c with
  | nil => rfl
  | cons call calls ih =>
      obtain ⟨hrestore, hreload⟩ := hcalls call List.mem_cons_self
      have hlogged := logged_perform call.occasion c hrestore hreload
      have hrest := ih (fun other hother => hcalls other (List.mem_cons_of_mem _ hother))
        (c.perform call.occasion call.request).cycle
      rw [hlogged.id_eq] at hrest
      rw [run, List.flatMap_cons, hlogged.records_eq, hrest, trail, trail, run, List.flatMap_cons,
        List.map_append]

theorem unbroken_trail {c : Cycle} (hid : c.id.isWritable = true) :
    Unbroken c.current ((c.trail calls).filterMap Event.move?) (c.after calls).current := by
  induction calls generalizing c with
  | nil => exact .nil c.current
  | cons call calls ih =>
      obtain ⟨hrestore, hreload⟩ := hcalls call List.mem_cons_self
      have hlogged := logged_perform call.occasion c hrestore hreload
      have hrest := ih (fun other hother => hcalls other (List.mem_cons_of_mem _ hother))
        (hlogged.id_eq ▸ hid)
      rw [trail, run, List.flatMap_cons, List.filterMap_append]
      exact (hlogged.unbroken hid).append hrest

/-- A phase is completed if it was at the beginning, or if a call completed it. -/
theorem isCompleted_take_iff {c : Cycle} (hid : c.id.isWritable = true) (n : Nat) {p : Phase} :
    (c.after (calls.take n)).isCompleted p = true ↔
      c.isCompleted p = true ∨ c.CompletedWithin calls n p := by
  induction n with
  | zero => simp [CompletedWithin]
  | succ n ih =>
      rw [completedWithin_succ_iff, ← or_assoc, ← ih, getElem?_run]
      cases hcall : calls[n]? with
      | none => simp [List.take_add_one, hcall]
      | some call =>
          obtain ⟨hrestore, hreload⟩ := hcalls call (List.mem_of_getElem? hcall)
          have hlogged := logged_perform call.occasion (c.after (calls.take n)) hrestore hreload
          have hthen : (c.after (calls.take n)).id.isWritable = true := by
            rwa [id_after_own fun call hcall => hcalls call (List.mem_of_mem_take hcall)]
          rw [List.take_add_one, hcall, after_append]
          simpa using hlogged.isCompleted_iff hthen

end Runs

/-- The log of a run says of every call what came of it, and of a completion whether it was
the first one of its phase. -/
structure KeepsRecords (c : Cycle) (calls : List Call) : Prop where
  length_eq : (c.run calls).length = calls.length
  logs {i : Nat} {call : Call} {out : Outcome Answer} :
    calls[i]? = some call → (c.run calls)[i]? = some out →
      (c.after (calls.take i)).Logs call out
  records_eq :
    (c.run calls).flatMap Outcome.records = (c.trail calls).map (Event.record c.id)
  named {p q p' q' : Phase} :
    Event.record c.id (.moved p q) = Event.record c.id (.moved p' q') → p = p' ∧ q = q'
  replaced_iff {i : Nat} {call : Call} {out : Outcome Answer} {s : Summary} :
    calls[i]? = some call → (c.run calls)[i]? = some out →
      call.request.summary? call.occasion = some s → out.answer = .ok .done →
        ∃ text, out.records = [⟨.info, text⟩] ∧ (text.EndsIn Event.replacedMark ↔
          c.isCompleted s.phase = true ∨ c.CompletedWithin calls i s.phase)

/-- The log says moreover where the moves of the run led. -/
structure AuditTrail (c : Cycle) (calls : List Call) : Prop extends KeepsRecords c calls where
  unbroken :
    Unbroken c.current ((c.trail calls).filterMap Event.move?) (c.after calls).current

theorem keepsRecords (c : Cycle) {calls : List Call} (hcalls : ∀ call ∈ calls, call.IsOwn) :
    c.KeepsRecords calls where
  length_eq := c.length_run calls
  logs hcall hout := (logged_run hcalls hcall hout).logs
  records_eq := records_run hcalls c
  named := Event.moved_inj_of_record
  replaced_iff {i call out s} hcall hout hs hanswer := by
    have hlogged := logged_run hcalls hcall hout
    obtain ⟨hid, hrecords⟩ := hlogged.records_of_summary? hs hanswer
    -- a completion that succeeded is told, so the identifier was written out all along
    rw [id_after_own fun call hcall => hcalls call (List.mem_of_mem_take hcall)] at hid
    refine ⟨_, hrecords, ?_⟩
    rw [Event.endsIn_words_recorded, isCompleted_take_iff hcalls hid]

/-- Where the identifier cannot be written out, the cycle can be moved with nothing told. -/
theorem exists_untold_move {c : Cycle} (hid : c.id.isWritable = false) :
    ∃ calls : List Call, (∀ call ∈ calls, call.IsOwn) ∧ c.trail calls = [] ∧
      (c.after calls).current ≠ c.current := by
  let o : Occasion := { now := .millennium, freshId := "cycle" }
  let s : Summary := ⟨c.current, .str "", [], [], .millennium⟩
  by_cases hfirst : c.current = .issueRaising
  · -- at the first phase there is none to go back to, so it is completed and left
    have hcomplete : (c.store s).canMoveTo .problemFrame = true := by
      have hdone : (c.store s).isCompleted .issueRaising = true := by
        rw [isCompleted, completed_store, if_pos hfirst.symm]
        rfl
      have hearlier : Phase.working.take Phase.problemFrame.index = [.issueRaising] := rfl
      refine canMoveTo_iff.mpr ⟨by decide, .inr ((isGreatest_headway _).2 ⟨by decide, ?_⟩)⟩
      simpa [hearlier] using hdone
    have hmove := moveTo_of_not_isWritable (c := c.store s) hid .problemFrame
    rw [if_pos hcomplete] at hmove
    have hrecord := record_of_not_isWritable hid (s := s) rfl
    refine ⟨[⟨o, .record s⟩, ⟨o, .moveTo .problemFrame⟩], ?_, ?_, ?_⟩
    · simp [Call.IsOwn, Request.IsRestore, Request.isReload]
    · simp [trail, run, perform, Outcome.map, Outcome.events, hrecord, hmove]
    · simp [perform, hrecord, hmove, hfirst]
  · have hback : c.canMoveTo .issueRaising = true :=
      canMoveTo_iff.mpr ⟨by decide, .inl (Nat.zero_le _)⟩
    have hmove := moveTo_of_not_isWritable hid .issueRaising
    rw [if_pos hback] at hmove
    refine ⟨[⟨o, .moveTo .issueRaising⟩], ?_, ?_, ?_⟩
    · simp [Call.IsOwn, Request.IsRestore, Request.isReload]
    · simp [trail, run, perform, Outcome.map, Outcome.events, hmove]
    · simpa [perform, hmove] using Ne.symm hfirst

/-- **The log is an audit trail.** Of any run of any cycle in whose place no other one is
put, the log keeps records; and it says where the moves led, whatever the run, exactly if
the identifier of the cycle can be written out. -/
theorem run_keepsAuditTrail (c : Cycle) :
    (∀ calls : List Call, (∀ call ∈ calls, call.IsOwn) → c.KeepsRecords calls) ∧
      ((∀ calls : List Call, (∀ call ∈ calls, call.IsOwn) → c.AuditTrail calls) ↔
        c.id.isWritable = true) := by
  refine ⟨fun calls hcalls => c.keepsRecords hcalls, fun h => ?_, fun hid calls hcalls =>
    ⟨c.keepsRecords hcalls, unbroken_trail hcalls hid⟩⟩
  by_contra hid
  obtain ⟨calls, hcalls, htrail, hmoved⟩ := exists_untold_move (eq_false_of_ne_true hid)
  have hunbroken := (h calls hcalls).unbroken
  rw [htrail] at hunbroken
  generalize (c.after calls).current = last at hunbroken hmoved
  cases hunbroken
  exact hmoved rfl

/-- Refusals, a move to where the cycle is already, and a second completion of a phase
after going back to it. -/
theorem run_keepsAuditTrail_backAgain :
    let o : Occasion := { now := .millennium, freshId := "cycle" }
    let summary (p : Phase) : Summary := ⟨p, .str "", [], [], .millennium⟩
    let requests : List Request :=
      [.moveTo .objectives, .record (summary .issueRaising), .moveTo .problemFrame,
        .route (.navigate .tradeoffs), .record (summary .tradeoffs), .moveTo .issueRaising,
        .moveTo .issueRaising, .record (summary .issueRaising), .reachable]
    let calls := requests.map (Call.mk o)
    (start o .null).id.isWritable = true ∧ (∀ call ∈ calls, call.IsOwn) ∧
      (start o .null).trail calls =
        [.moveRefused .issueRaising .objectives, .recorded .issueRaising false,
          .moved .issueRaising .problemFrame, .moveRefused .problemFrame .tradeoffs,
          .recordRefused .tradeoffs .problemFrame, .moved .problemFrame .issueRaising,
          .moved .issueRaising .issueRaising, .recorded .issueRaising true] ∧
      (start o .null).AuditTrail calls := by
  intro o summary requests calls
  have hcalls : ∀ call ∈ calls, call.IsOwn := by
    simp [calls, requests, Call.IsOwn, Request.IsRestore, Request.isReload]
  exact ⟨rfl, hcalls, by decide, (run_keepsAuditTrail (start o .null)).2.mpr rfl calls hcalls⟩

/-- A move back of which the log has nothing. -/
theorem run_losesTrail :
    let o : Occasion := { now := .millennium, freshId := "cycle" }
    let stored : Value := .dict
      [(.str "cycle_id", .longInt), (.str "current_phase", .str Phase.objectives.key)]
    let c := unnamed .objectives
    let calls : List Call := [⟨o, .moveTo .issueRaising⟩]
    ofPayload o stored = .ok c ∧ (∀ call ∈ calls, call.IsOwn) ∧ c.current = .objectives ∧
      (c.after calls).current = .issueRaising ∧
      (c.run calls).flatMap Outcome.records = [] ∧ ¬c.AuditTrail calls := by
  intro o stored c calls
  have hcalls : ∀ call ∈ calls, call.IsOwn := by
    simp [calls, Call.IsOwn, Request.IsRestore, Request.isReload]
  have hlast : (c.after calls).current = .issueRaising := by
    simp [calls, c, perform_moveTo_unnamed]
  have htrail : c.trail calls = [] := by
    simp [calls, c, trail, run, perform_moveTo_unnamed, Outcome.events]
  refine ⟨ofPayload_unnamed o (by decide), hcalls, rfl, hlast, ?_, fun h => ?_⟩
  · rw [records_run hcalls, htrail]
    rfl
  · have hunbroken := h.unbroken
    rw [htrail, hlast] at hunbroken
    cases hunbroken

end Cycle

end DecisionCycle
