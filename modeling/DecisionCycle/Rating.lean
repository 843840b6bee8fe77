import DecisionCycle.Payload

/-!
Ratings: how one alternative compares with a baseline on one objective, in five
grades from -2 to 2.
-/

namespace DecisionCycle

/-- The judgement of an alternative on an objective. -/
inductive Rating where
  | muchWorse
  | worse
  | same
  | better
  | muchBetter
  deriving DecidableEq, Inhabited

namespace Rating

def all : List Rating :=
  [muchWorse, worse, same, better, muchBetter]

def value : Rating → Int
  | muchWorse => -2
  | worse => -1
  | same => 0
  | better => 1
  | muchBetter => 2

def least : Int := -2

def greatest : Int := 2

theorem value_bounds (r : Rating) : least ≤ r.value ∧ r.value ≤ greatest := by
  cases r <;> decide

/-- What a missing rating counts. -/
def missing : Int := 0

def ofInt? (n : Int) : Option Rating :=
  all.find? fun r => r.value == n

def capitalName : Rating → String
  | muchWorse => "MUCH_WORSE"
  | worse => "WORSE"
  | same => "SAME"
  | better => "BETTER"
  | muchBetter => "MUCH_BETTER"

def label : Rating → String
  | muchWorse => "Much Worse"
  | worse => "Worse"
  | same => "Same"
  | better => "Better"
  | muchBetter => "Much Better"

def text (r : Rating) : String :=
  if 0 < r.value then "+" ++ toString r.value else toString r.value

/-- Whether a value that was read as an integer equals it. Texts were read as
they are written; numbers must have no fraction. -/
def isExact (v : Value) (n : Int) : Bool :=
  v.number?.all fun x => x.eq (Number.ofInt n)

def refusal (v : Value) : PayloadFault :=
  if v.isWritable then .ratingOutOfRange v else .tooManyDigits

/-- The rating in a payload: a number without fraction, or a text that writes
an integer. Truth values are no ratings. -/
def ofPayload (v : Value) : Except PayloadFault Rating :=
  match v with
  | .bool _ => .error (refusal v)
  | _ =>
    match v.toInt with
    | .error .infinite => .error .infinite
    | .error _ => .error (refusal v)
    | .ok n =>
      if isExact v n then
        match ofInt? n with
        | some r => .ok r
        | none => .error (refusal v)
      else .error (refusal v)

end Rating

end DecisionCycle
