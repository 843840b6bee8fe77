import DecisionCycle.Payload

/-!
Decision quality: scored elements, the priority of improving each, and an
overall score that is the lowest of them. A decision is as good as its weakest
element, so nothing is averaged.
-/

namespace DecisionCycle

abbrev Score := Fin 101

namespace Score

def least : Nat := 0

def greatest : Nat := 100

/-- The score that every element of an acceptable decision reaches. -/
def acceptable : Nat := 80

def clamp (n : Int) : Score :=
  ⟨(max 0 (min 100 n)).toNat, by omega⟩

def ofPayload (v : Value) : Except PayloadFault Score :=
  v.toInt.map clamp

end Score

inductive Priority where
  | critical
  | high
  | medium
  | low
  deriving DecidableEq, Inhabited

namespace Priority

def criticalBound : Int := 30

def highBound : Int := 50

def mediumBound : Int := 70

/-- The priority of what is at most some numbers: that of the first bound it
does not exceed. -/
def banded (atMost : Int → Bool) : Priority :=
  if atMost criticalBound then critical
  else if atMost highBound then high
  else if atMost mediumBound then medium
  else low

def ofScore (s : Score) : Priority :=
  banded fun bound => (s.val : Int) ≤ bound

/-- The priority of any number. What is not a number is at most nothing. -/
def ofPayload (v : Value) : Except PayloadFault Priority :=
  match v.number? with
  | some x => .ok (banded fun bound => x.le (Number.ofInt bound))
  | none => .error .notOrdered

def name : Priority → String
  | critical => "CRITICAL"
  | high => "HIGH"
  | medium => "MEDIUM"
  | low => "LOW"

def label : Priority → String
  | critical => "Critical"
  | high => "High"
  | medium => "Medium"
  | low => "Low"

end Priority

structure Element where
  name : Text
  score : Score
  rationale : Value
  improvement : Value

namespace Element

def standardNames : List String :=
  ["Helpful Problem Frame", "Clear Objectives", "Creative Alternatives",
    "Reliable Consequence Information", "Logically Correct Reasoning",
    "Clear Tradeoffs", "Commitment to Follow Through"]

def priority (e : Element) : Priority :=
  .ofScore e.score

/-- The element in a payload: a name, a score of zero unless another is there,
a rationale and a way of improvement. -/
def ofPayload (v : Value) : Except PayloadFault Element := do
  let name ← (← v.require "name").written
  let score ← v.fieldOr "score" (.int 0)
  let rationale ← v.field "rationale"
  let improvement := (← v.field "improvement_path").orElse (← v.field "improvement")
  return { name, score := ← Score.ofPayload score, rationale, improvement }

def fieldNames : List String :=
  ["name", "score", "rationale", "improvement_path"]

/-- An element as it is made of given fields. Its name is taken as it is, and so may be any
value. -/
structure Made where
  name : Value
  score : Score
  rationale : Value
  improvement : Value

def Made.element? (m : Made) : Option Element :=
  match m.name with
  | .str name =>
      some { name, score := m.score, rationale := m.rationale, improvement := m.improvement }
  | _ => none

def ofFields (v : Value) : Except PayloadFault Made :=
  match v with
  | .dict entries =>
    if entries.all fun e => fieldNames.any fun name => e.1.sameKey (.str name) then
      match Value.lookup? "name" entries, Value.lookup? "score" entries with
      | some name, some score => do
        let rationale ← v.field "rationale"
        let improvement ← v.field "improvement_path"
        return { name, score := ← Score.ofPayload score, rationale, improvement }
      | _, _ => .error .wrongFields
    else .error .wrongFields
  | _ => .error .wrongFields

def toPayload (e : Element) : Value :=
  .dict
    [(.str "name", .str e.name),
      (.str "score", .int e.score.val),
      (.str "rationale", e.rationale),
      (.str "improvement_path", e.improvement),
      (.str "priority", .str e.priority.name)]

/-- The lowest score; zero if there are no elements. -/
def overall : List Element → Score
  | [] => 0
  | [e] => e.score
  | e :: rest => if e.score ≤ overall rest then e.score else overall rest

def weakest? (es : List Element) : Option Element :=
  es.minOn? Element.score

/-- The elements from the lowest score to the highest, equal scores in their
given order. -/
def byPriority (es : List Element) : List Element :=
  es.mergeSort fun a b => a.score ≤ b.score

def missing (es : List Element) : List String :=
  standardNames.filter fun name => !es.any fun e => e.name == (name : Text)

def isComplete (es : List Element) : Bool :=
  (missing es).isEmpty

def isAcceptable (es : List Element) : Bool :=
  !es.isEmpty && es.all fun e => Score.acceptable ≤ e.score.val

end Element

end DecisionCycle
