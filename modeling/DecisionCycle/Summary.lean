import DecisionCycle.Payload

/-!
What a completed phase leaves behind: a summary, and the context that collects
the summaries of earlier work for a phase. Summaries come from callers or from
payloads; a payload may leave out everything but the phase.
-/

namespace DecisionCycle

/-- What the surroundings supply where a payload leaves a gap: the present time,
in universal time, and an identifier that no cycle has yet. -/
structure Occasion where
  now : Timestamp
  freshId : Text
  isUniversal : now.offset = some 0 := by decide
  isGiven : freshId.isEmpty = false := by decide

structure Summary where
  phase : Phase
  text : Value
  keyOutputs : List Value
  conflicts : List Value
  completedAt : Timestamp

namespace Summary

def isEmpty (s : Summary) : Bool :=
  !s.text.isGiven && s.keyOutputs.isEmpty

/-- A final `Z` of either case written as an offset. -/
def expandZulu (t : Text) : Text :=
  let last := t.points.getLast?
  if last = some (.char 'Z') ∨ last = some (.char 'z') then
    ⟨t.points.dropLast⟩ ++ ("+00:00" : Text)
  else t

/-- The time of completion in a payload: a timestamp, a text that writes one, or
the present where none is given. A time without an offset is universal time. -/
def readCompletedAt (now : Timestamp) (v : Value) : Except PayloadFault Timestamp :=
  match v with
  | .time t => .ok t.assumeUtc
  | _ =>
    if v.isGiven then do
      let text ← v.written
      match Timestamp.ofText? (expandZulu text.trimmed) with
      | some t => .ok t.assumeUtc
      | none => .error .notTimestamp
    else .ok now.assumeUtc

def readList (v : Value) : Except PayloadFault (List Value) :=
  (v.orElse (.list [])).items

/-- The summary in a payload. The fields are read in the order time, phase,
text, key outputs, conflicts, and the first fault is reported. -/
def ofPayload (o : Occasion) (v : Value) : Except PayloadFault Summary := do
  let completedAt ← readCompletedAt o.now (← v.field "completed_at")
  let phase ← (← v.require "phase").toPhase
  let text := (← v.field "summary").orElse (.str "")
  let keyOutputs ← readList (← v.field "key_outputs")
  let conflicts ← readList (← v.field "conflicts")
  return { phase, text, keyOutputs, conflicts, completedAt }

def toPayload (s : Summary) : Value :=
  .dict
    [(.str "phase", .str s.phase.key),
      (.str "summary", s.text),
      (.str "key_outputs", .list s.keyOutputs),
      (.str "conflicts", .list s.conflicts),
      (.str "completed_at", .str s.completedAt.text)]

end Summary

/-- Earlier work handed to whoever works on a phase. -/
structure Context where
  phase : Phase
  prior : List Summary

def Context.summariesFor (c : Context) (p : Phase) : List Summary :=
  c.prior.filter fun s => s.phase = p

end DecisionCycle
