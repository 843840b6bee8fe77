import DecisionCycle.Cycle.Stored

/-!
Working with a cycle request by request. Only a restoration puts another cycle in
its place.
-/

namespace DecisionCycle

inductive Request where
  | route (intent : Intent)
  | canMoveTo (phase : Phase)
  | moveTo (phase : Phase)
  | record (summary : Summary)
  /-- Complete the current phase with the summary in a payload. -/
  | recordPayload (payload : Value)
  | contextFor (phase : Phase)
  | next
  | reachable
  | progress
  | isCompleted (phase : Phase)
  | id
  | state
  | summaryOf (phase : Phase)
  /-- Store the cycle and go on with what restoring gives. -/
  | reload
  | restore (payload : Value)

structure Call where
  occasion : Occasion
  request : Request

inductive Answer where
  | done
  | phase (p : Phase)
  | phase? (p : Option Phase)
  | phases (ps : List Phase)
  | flag (b : Bool)
  | context (c : Context)
  | progress (p : Progress)
  | id (v : Value)
  | summary? (s : Option Summary)
  | cycle (c : Cycle)

namespace Outcome

variable {α β : Type}

def map (f : α → β) (o : Outcome α) : Outcome β :=
  { answer := o.answer.map f, cycle := o.cycle, notes := o.notes }

@[simp] theorem cycle_map (f : α → β) (o : Outcome α) : (o.map f).cycle = o.cycle := rfl

theorem map_telling (f : α → β) (e : Event) (c : Cycle) (answer : Except Fault α) :
    (telling e c answer).map f = telling e c (answer.map f) := by
  unfold telling
  split <;> rfl

theorem isOk_map (f : α → β) (o : Outcome α) :
    (∃ b, (o.map f).answer = .ok b) ↔ ∃ a, o.answer = .ok a := by
  cases h : o.answer <;> simp [map, h, Except.map]

def ofAnswer (c : Cycle) (a : α) : Outcome α :=
  { answer := .ok a, cycle := c, notes := [] }

def ofFault (c : Cycle) (f : Fault) : Outcome α :=
  { answer := .error f, cycle := c, notes := [] }

end Outcome

namespace Cycle

/-- Goes on with the cycle that a payload stores, or stays if there is none. -/
def replaceBy (o : Occasion) (c : Cycle) (payload : Value) : Outcome Answer :=
  match ofPayload o payload with
  | .ok restored => Outcome.ofAnswer restored (.cycle restored)
  | .error fault => Outcome.ofFault c fault

def perform (o : Occasion) (c : Cycle) : Request → Outcome Answer
  | .route intent => (c.route intent).map .phase
  | .canMoveTo p => .ofAnswer c (.flag (c.canMoveTo p))
  | .moveTo p => (c.moveTo p).map fun _ => .done
  | .record s => (c.record s).map fun _ => .done
  | .recordPayload payload =>
    match Summary.ofPayload o payload with
    | .ok s => (c.record s).map fun _ => .done
    | .error fault => .ofFault c (.payload fault)
  | .contextFor p => .ofAnswer c (.context (c.contextFor p))
  | .next => .ofAnswer c (.phase? c.next?)
  | .reachable => .ofAnswer c (.phases c.reachable)
  | .progress => .ofAnswer c (.progress c.progress)
  | .isCompleted p => .ofAnswer c (.flag (c.isCompleted p))
  | .id => .ofAnswer c (.id c.id)
  | .state => .ofAnswer c (.cycle c)
  | .summaryOf p => .ofAnswer c (.summary? (c.completed p))
  | .reload => c.replaceBy o c.toPayload
  | .restore payload => c.replaceBy o payload

/-- Carries out calls one after another, a refusal not stopping the next. -/
def run (c : Cycle) : List Call → List (Outcome Answer)
  | [] => []
  | call :: rest =>
    let outcome := c.perform call.occasion call.request
    outcome :: run outcome.cycle rest

def after (c : Cycle) (calls : List Call) : Cycle :=
  calls.foldl (fun c call => (c.perform call.occasion call.request).cycle) c

end Cycle

end DecisionCycle
