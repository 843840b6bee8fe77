import DecisionCycle.Cycle.Basic
import DecisionCycle.Fault

/-!
The stored form of a cycle: a mapping with its identifier, the key of the
current phase, and the summaries of the completed phases under their keys, in
order. Storing and restoring are the only way a cycle outlives a program.
-/

namespace DecisionCycle.Cycle

def storedSummaries (c : Cycle) : List (Value × Value) :=
  Phase.working.filterMap fun p =>
    (c.completed p).map fun s => (.str p.key, s.toPayload)

def toPayload (c : Cycle) : Value :=
  .dict
    [(.str "cycle_id", c.id),
      (.str "current_phase", .str c.current.key),
      (.str "completed", .dict c.storedSummaries)]

/-- The stored current phase; the first one where none is given. -/
def readCurrent (v : Value) : Except StateFault Phase :=
  ((v.orElse (.str Phase.issueRaising.key)).toPhase).mapError .unreadablePhase

def refuse (cause : StateFault) : Fault :=
  .cycle (.invalidState cause)

/-- The fault of an entry that cannot be read. It shows the key, which may be too
long for that. -/
def entryFault (key : Value) (cause : PayloadFault) : Fault :=
  if key.isWritable then refuse (.malformed key cause) else .payload .tooManyDigits

def readEntry (o : Occasion) (key raw : Value) : Except Fault (Phase × Summary) :=
  (do
    let phase ← key.toPhase
    let summary ← Summary.ofPayload o raw
    return (phase, summary)).mapError (entryFault key)

/-- The stored summaries, entered one after another. -/
def readEntries (o : Occasion) (completed : Table Phase Summary) :
    List (Value × Value) → Except Fault (Table Phase Summary)
  | [] => .ok completed
  | (key, raw) :: rest => do
    let (phase, summary) ← readEntry o key raw
    readEntries o (completed.put phase summary) rest

def ofPayload (o : Occasion) (v : Value) : Except Fault Cycle := do
  let current ← (readCurrent (← (v.field "current_phase").mapError .payload)).mapError refuse
  let stored ← (v.field "completed").mapError .payload
  let entries ← ((stored.orElse (.dict [])).entries).mapError .payload
  let completed ← readEntries o Table.empty entries
  let id ← (v.field "cycle_id").mapError .payload
  (create o.freshId id current completed).mapError refuse

end DecisionCycle.Cycle
