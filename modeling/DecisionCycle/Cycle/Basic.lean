import DecisionCycle.Fault
import DecisionCycle.Log
import DecisionCycle.Summary
import DecisionCycle.Table

/-!
A decision cycle: the phase being worked on, and the summaries of the phases
completed so far. Going back is always possible. Going forward needs every
earlier phase to be completed. Completing a phase does not advance the cycle;
that is a move of its own.

What happens to a cycle is told to the log, mostly with its identifier. An
identifier can be any value, and one that cannot be written out makes the call
fail at that point, when the cycle has already been changed.
-/

namespace DecisionCycle

structure Cycle where
  id : Value
  current : Phase
  completed : Phase → Option Summary

inductive Event where
  | moved (source target : Phase)
  | recorded (phase : Phase) (replaced : Bool)
  | finished (phase : Phase)
  | moveRefused (source target : Phase)
  | recordRefused (phase current : Phase)
  deriving DecidableEq

namespace Event

def level : Event → Level
  | moved .. => .info
  | recorded .. => .info
  | finished _ => .info
  | moveRefused .. => .error
  | recordRefused .. => .error

def words (name : Text) : Event → Text
  | moved source target =>
      "Cycle " ++ name ++ " transitioned: " ++ source.title ++ " -> " ++ target.title
  | recorded phase replaced =>
      "Cycle " ++ name ++ " recorded completion of " ++ phase.title ++
        (if replaced then " (replaced earlier summary)" else "")
  | finished phase => "Cycle " ++ name ++ " completed at " ++ phase.title
  | moveRefused source target =>
      "Invalid transition for cycle " ++ name ++ ": " ++ source.title ++ " -> " ++
        target.title
  | recordRefused phase current => (StateFault.outOfTurn phase current).reason

def namesCycle : Event → Bool
  | recordRefused .. => false
  | _ => true

/-- The message of an event. There is none if it has to name a cycle whose identifier
cannot be written out. -/
def message (id : Value) (e : Event) : Except PayloadFault Text :=
  if e.namesCycle then id.written.map e.words else .ok (e.words "")

theorem message_of_isWritable {id : Value} (h : id.isWritable = true) (e : Event) :
    e.message id = .ok (e.words id.text) := by
  cases e <;> simp [message, namesCycle, words, Value.written, h, Except.map]

end Event

structure Note where
  event : Event
  message : Text

def Note.record (n : Note) : LogRecord :=
  { level := n.event.level, message := n.message }

/-- What comes of a request to a cycle: an answer or a refusal, the cycle after
it, and what the log has of it. -/
structure Outcome (α : Type) where
  answer : Except Fault α
  cycle : Cycle
  notes : List Note

namespace Outcome

variable {α : Type}

/-- Tells the log of an event, and then answers. If the event cannot be told, this
takes the place of the answer; the cycle is what it is by then. -/
def telling (e : Event) (c : Cycle) (answer : Except Fault α) : Outcome α :=
  match e.message c.id with
  | .ok message => { answer, cycle := c, notes := [⟨e, message⟩] }
  | .error cause => { answer := .error (.payload cause), cycle := c, notes := [] }

@[simp] theorem cycle_telling (e : Event) (c : Cycle) (answer : Except Fault α) :
    (telling e c answer).cycle = c := by
  unfold telling
  split <;> rfl

theorem telling_of_isWritable {c : Cycle} (h : c.id.isWritable = true) (e : Event)
    (answer : Except Fault α) :
    telling e c answer = { answer, cycle := c, notes := [⟨e, e.words c.id.text⟩] } := by
  rw [telling, e.message_of_isWritable h]

theorem telling_of_namesCycle {c : Cycle} (h : c.id.isWritable = false) {e : Event}
    (he : e.namesCycle = true) (answer : Except Fault α) :
    telling e c answer =
      { answer := .error (.payload .tooManyDigits), cycle := c, notes := [] } := by
  rw [telling, Event.message, if_pos he, Value.written, h]
  rfl

theorem answer_telling_eq_ok {e : Event} (he : e.namesCycle = true) {c : Cycle}
    {answer : Except Fault α} {a : α} :
    (telling e c answer).answer = .ok a ↔ answer = .ok a ∧ c.id.isWritable = true := by
  cases h : c.id.isWritable with
  | true => simp [telling_of_isWritable h]
  | false => simp [telling_of_namesCycle h he]

theorem answer_telling_of_not_namesCycle {e : Event} (he : e.namesCycle = false) (c : Cycle)
    (answer : Except Fault α) : (telling e c answer).answer = answer := by
  simp [telling, Event.message, he]

theorem answer_telling (e : Event) (c : Cycle) (answer : Except Fault α) :
    (telling e c answer).answer = answer ∨
      (telling e c answer).answer = .error (.payload .tooManyDigits) ∧
        c.id.isWritable = false := by
  cases h : c.id.isWritable with
  | true => exact .inl (by rw [telling_of_isWritable h])
  | false =>
      by_cases he : e.namesCycle = true
      · exact .inr ⟨by rw [telling_of_namesCycle h he], rfl⟩
      · exact .inl (answer_telling_of_not_namesCycle (eq_false_of_ne_true he) c answer)

def events (o : Outcome α) : List Event :=
  o.notes.map Note.event

def records (o : Outcome α) : List LogRecord :=
  o.notes.map Note.record

end Outcome

structure Progress where
  completed : Nat
  total : Nat
  deriving DecidableEq

def Progress.permille (p : Progress) : Nat :=
  (2000 * p.completed + p.total) / (2 * p.total)

def Progress.percentText (p : Progress) : String :=
  let whole := p.permille / 10
  let tenth := p.permille % 10
  s!"{whole}.{tenth}"

namespace Cycle

/-- The first fault of a table of summaries: a phase that is not worked on, or a
summary in another phase's place. -/
def tableFault? (completed : Table Phase Summary) : Option StateFault :=
  completed.rows.findSome? fun (place, summary) =>
    if ¬place.IsWorking then some (.notCompletable place)
    else if summary.phase ≠ place then some (.misfiled place summary.phase)
    else none

/-- A cycle with the given contents. An identifier that is not given is
replaced by a fresh one. -/
def create (freshId : Text) (id : Value) (current : Phase)
    (completed : Table Phase Summary) : Except StateFault Cycle :=
  if ¬current.IsWorking then .error (.notWorking current)
  else
    match tableFault? completed with
    | some fault => .error fault
    | none =>
        .ok { id := id.orElse (.str freshId), current, completed := completed.get? }

def start (o : Occasion) (id : Value) : Cycle :=
  { id := id.orElse (.str o.freshId), current := .issueRaising, completed := fun _ => none }

def isCompleted (c : Cycle) (p : Phase) : Bool :=
  (c.completed p).isSome

def completedPhases (c : Cycle) : List Phase :=
  Phase.working.filter c.isCompleted

def next? (c : Cycle) : Option Phase :=
  Phase.working[c.current.index + 1]?

/-- Whether a phase may become the current one: it is a working phase, and it
does not lie ahead or all working phases before it are completed. -/
def canMoveTo (c : Cycle) (target : Phase) : Bool :=
  decide target.IsWorking &&
    (decide (target.index ≤ c.current.index) ||
      (Phase.working.take target.index).all c.isCompleted)

def reachable (c : Cycle) : List Phase :=
  Phase.working.filter c.canMoveTo

def progress (c : Cycle) : Progress :=
  { completed := c.completedPhases.length, total := Phase.working.length }

def contextFor (c : Cycle) (p : Phase) : Context :=
  { phase := p
    prior := (Phase.working.filter (· ≠ p)).filterMap c.completed }

def refusal (c : Cycle) (target : Phase) : Fault :=
  .cycle (.invalidTransition c.current target c.reachable)

def moveTo (c : Cycle) (target : Phase) : Outcome Unit :=
  if c.canMoveTo target then
    .telling (.moved c.current target) { c with current := target } (.ok ())
  else .telling (.moveRefused c.current target) c (.error (c.refusal target))

def store (c : Cycle) (s : Summary) : Cycle :=
  { c with completed := fun p => if p = s.phase then some s else c.completed p }

/-- Stores the summary of the current phase, in place of an earlier one. -/
def record (c : Cycle) (s : Summary) : Outcome Unit :=
  if s.phase = c.current then
    .telling (.recorded s.phase (c.isCompleted s.phase)) (c.store s) (.ok ())
  else
    .telling (.recordRefused s.phase c.current) c
      (.error (.cycle (.invalidState (.outOfTurn s.phase c.current))))

/-- The phase to act on next for an intent. The cycle stays as it is. -/
def route (c : Cycle) (i : Intent) : Outcome Phase :=
  match i with
  | .navigate target =>
      if c.canMoveTo target then { answer := .ok target, cycle := c, notes := [] }
      else .telling (.moveRefused c.current target) c (.error (c.refusal target))
  | .errand .complete _ =>
      match c.next? with
      | some p => { answer := .ok p, cycle := c, notes := [] }
      | none => .telling (.finished c.current) c (.error (.cycle (.cycleCompleted c.current)))
  | .errand _ _ => { answer := .ok c.current, cycle := c, notes := [] }

end Cycle

end DecisionCycle
