import DecisionCycle.Phase
import DecisionCycle.Text.Numeral
import DecisionCycle.Value.Text

/-!
Reading payloads: asking a value of unknown shape for a field, its entries, its
items or a number, and what can be wrong with the answer.
-/

namespace DecisionCycle

/-- What can be wrong with a value of a payload. -/
inductive PayloadFault where
  | notMapping
  /-- A required field is asked of something that has no fields at all. -/
  | noFields
  | missingField (name : String)
  | wrongFields
  | noItems
  | notNumeric
  | notInteger
  | notANumber
  | infinite
  | notOrdered
  | notTimestamp
  /-- Something that is written out and has no written form. -/
  | notWritable
  | tooManyDigits
  | unknownPhase (value : Value)
  | ratingOutOfRange (value : Value)

namespace PayloadFault

def label : PayloadFault → String
  | notMapping => "AttributeError"
  | noFields => "TypeError"
  | missingField _ => "KeyError"
  | wrongFields => "TypeError"
  | noItems => "TypeError"
  | notNumeric => "TypeError"
  | notInteger => "ValueError"
  | notANumber => "ValueError"
  | infinite => "OverflowError"
  | notOrdered => "TypeError"
  | notTimestamp => "ValueError"
  | notWritable => "TypeError"
  | tooManyDigits => "ValueError"
  | unknownPhase _ => "ValueError"
  | ratingOutOfRange _ => "RatingOutOfRangeError"

def message? : PayloadFault → Option String
  | missingField name => some (Value.str name).literal
  | unknownPhase value => some ("Unknown phase: " ++ value.literal)
  | ratingOutOfRange value =>
      some ("rating must be an integer in [-2, 2], got " ++ value.literal)
  | _ => none

/-- A fault as other messages quote it: its message, or else its kind. -/
def text (f : PayloadFault) : String :=
  f.message?.getD ("<" ++ f.label ++ ">")

end PayloadFault

namespace Value

def fieldOr (v : Value) (name : String) (default : Value) : Except PayloadFault Value :=
  match v with
  | .dict entries => .ok ((lookup? name entries).getD default)
  | _ => .error .notMapping

def field (v : Value) (name : String) : Except PayloadFault Value :=
  v.fieldOr name .null

def require (v : Value) (name : String) : Except PayloadFault Value :=
  match v with
  | .dict entries =>
    match lookup? name entries with
    | some value => .ok value
    | none => .error (.missingField name)
  | _ => .error .noFields

def entries (v : Value) : Except PayloadFault (List (Value × Value)) :=
  match v with
  | .dict es => .ok es
  | _ => .error .notMapping

def items (v : Value) : Except PayloadFault (List Value) :=
  match v with
  | .list vs => .ok vs
  | .dict es => .ok (es.map Prod.fst)
  | .str s => .ok (s.points.map fun p => .str ⟨[p]⟩)
  | _ => .error .noItems

/-- A value as an integer. Fractions are cut toward zero, and a text is read. -/
def toInt (v : Value) : Except PayloadFault Int :=
  match v with
  | .bool b => .ok (if b then 1 else 0)
  | .int n => .ok n
  | .float .nan => .error .notANumber
  | .float x =>
    match x.truncate? with
    | some n => .ok n
    | none => .error .infinite
  | .str s =>
    match s.chars?.bind Text.integer? with
    | some n => .ok n
    | none => .error .notInteger
  | _ => .error .notNumeric

def written (v : Value) : Except PayloadFault Text :=
  if v.isWritable then .ok v.text else .error .tooManyDigits

@[simp] theorem written_str (s : Text) : written (.str s) = .ok s := by
  simp [written, isWritable, text]

/-- The fault of a value that names no phase. It shows the value, which may be too
long for that. -/
def namesNoPhase (v : Value) : PayloadFault :=
  if v.isWritable then .unknownPhase v else .tooManyDigits

def toPhase (v : Value) : Except PayloadFault Phase :=
  match v with
  | .str s =>
    match Phase.parse? s with
    | some p => .ok p
    | none => .error v.namesNoPhase
  | _ => .error v.namesNoPhase

@[simp] theorem toPhase_key (p : Phase) : toPhase (.str p.key) = .ok p := by
  simp [toPhase]

end Value

/-! Reading goes step by step, and succeeds where every step does. -/

section Steps

variable {ε ε' α β : Type}

theorem ok_bind (a : α) (f : α → Except ε β) : Except.ok a >>= f = f a := rfl

theorem bind_eq_ok {x : Except ε α} {f : α → Except ε β} {b : β} :
    x >>= f = .ok b ↔ ∃ a, x = .ok a ∧ f a = .ok b := by
  cases x <;> simp [bind, Except.bind]

theorem mapError_eq_ok {x : Except ε α} {g : ε → ε'} {a : α} :
    x.mapError g = .ok a ↔ x = .ok a := by
  cases x with
  | error e => exact ⟨nofun, nofun⟩
  | ok b =>
      constructor <;> intro h <;> cases h <;> rfl

theorem mapError_eq_error {x : Except ε α} {g : ε → ε'} {e : ε'} :
    x.mapError g = .error e ↔ ∃ cause, x = .error cause ∧ g cause = e := by
  cases x with
  | error cause =>
      constructor
      · intro h
        cases h
        exact ⟨cause, rfl, rfl⟩
      · rintro ⟨_, h, rfl⟩
        cases h
        rfl
  | ok a =>
      constructor
      · intro h
        cases h
      · rintro ⟨_, h, _⟩
        cases h

end Steps

end DecisionCycle
