import DecisionCycle.Number
import DecisionCycle.Text
import DecisionCycle.Timestamp

/-!
Values of unknown shape, as they arrive in payloads: nothing, truth values,
numbers, texts, lists, mappings with their entries in order, days and
timestamps.
-/

namespace DecisionCycle

inductive Value where
  | null
  | bool (b : Bool)
  | int (n : Int)
  | float (x : Number)
  | str (s : Text)
  | list (items : List Value)
  | dict (entries : List (Value × Value))
  | date (d : Date)
  | time (t : Timestamp)
  deriving Inhabited

namespace Value

/-- Whether a value counts as given. Nothing, false, zero and whatever is empty
do not. -/
def isGiven : Value → Bool
  | .null => false
  | .bool b => b
  | .int n => n != 0
  | .float x => !x.isZero
  | .str s => !s.isEmpty
  | .list items => !items.isEmpty
  | .dict entries => !entries.isEmpty
  | .date _ => true
  | .time _ => true

def orElse (v default : Value) : Value :=
  if v.isGiven then v else default

@[simp] theorem orElse_orElse (v default : Value) :
    (v.orElse default).orElse default = v.orElse default := by
  by_cases h : v.isGiven <;> simp [orElse, h]

theorem orElse_of_isGiven {v default : Value} (h : v.isGiven = true) : v.orElse default = v :=
  if_pos h

theorem isGiven_orElse {v default : Value} (h : default.isGiven = true) :
    (v.orElse default).isGiven = true := by
  by_cases hv : v.isGiven <;> simp [orElse, hv, h]

/-- A truth value or a number, as a number. -/
def number? : Value → Option Number
  | .bool b => some (Number.ofInt (if b then 1 else 0))
  | .int n => some (Number.ofInt n)
  | .float x => some x
  | _ => none

/-- Whether two values name the same entry of a mapping: numbers and truth
values by their numeric value, texts by their code points, timestamps by the point
in time. What is not a number is always the same. -/
def sameKey (v w : Value) : Bool :=
  match v, w with
  | .null, .null => true
  | .str s, .str t => s == t
  | .date d, .date e => d == e
  | .time t, .time u => t.isSame u
  | _, _ =>
    match v.number?, w.number? with
    | some x, some y => x.eq y || (x == .nan && y == .nan)
    | _, _ => false

@[simp] theorem sameKey_str (s t : String) :
    sameKey (.str s) (.str t) = decide (s = t) := by
  rw [Bool.eq_iff_iff]
  simp [sameKey]

def lookup? (key : String) : List (Value × Value) → Option Value
  | [] => none
  | (k, v) :: rest => if k.sameKey (.str key) then some v else lookup? key rest

def setEntry (key value : Value) : List (Value × Value) → List (Value × Value)
  | [] => [(key, value)]
  | (k, v) :: rest =>
      if k.sameKey key then (k, value) :: rest else (k, v) :: setEntry key value rest

end Value

end DecisionCycle
