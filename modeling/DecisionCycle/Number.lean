/-!
Numbers with a fractional part, as payloads carry them: a signed multiple of a
power of two, an infinity, or no number at all. A number is kept exactly, so
comparing one with an integer of any size is integer arithmetic.
-/

namespace DecisionCycle

/-- A floating-point number. The finite ones are `±mantissa · 2 ^ exponent`, and
zero keeps its sign. -/
inductive Number where
  | nan
  | infinite (negative : Bool)
  | finite (negative : Bool) (mantissa : Nat) (exponent : Int)
  deriving DecidableEq, Inhabited

namespace Number

def ofInt (n : Int) : Number :=
  .finite (decide (n < 0)) n.natAbs 0

/-- Numerator and denominator of `mantissa · 2 ^ exponent`. -/
def fraction (mantissa : Nat) : Int → Nat × Nat
  | .ofNat k => (mantissa * Nat.pow 2 k, 1)
  | .negSucc k => (mantissa, Nat.pow 2 (k + 1))

def ratio? : Number → Option (Int × Nat)
  | .finite negative mantissa exponent =>
      let (top, bottom) := fraction mantissa exponent
      some (if negative then -(top : Int) else top, bottom)
  | _ => none

def isZero : Number → Bool
  | .finite _ mantissa _ => mantissa == 0
  | _ => false

/-- The integer part of a finite number, toward zero. -/
def truncate? (x : Number) : Option Int :=
  x.ratio?.map fun (top, bottom) => top.tdiv bottom

/-- Equality by value: zero equals zero whatever the signs, and what is not a
number equals nothing. -/
def eq (x y : Number) : Bool :=
  match x, y with
  | .infinite s, .infinite t => s == t
  | _, _ =>
    match x.ratio?, y.ratio? with
    | some (a, b), some (c, d) => a * (d : Int) == c * (b : Int)
    | _, _ => false

def le (x y : Number) : Bool :=
  match x, y with
  | .nan, _ => false
  | _, .nan => false
  | .infinite true, _ => true
  | _, .infinite false => true
  | _, _ =>
    match x.ratio?, y.ratio? with
    | some (a, b), some (c, d) => decide (a * (d : Int) ≤ c * (b : Int))
    | _, _ => false

end Number

end DecisionCycle
