import DecisionCycle.Number

/-!
Rounding to double precision: 53 binary digits, exponents from -1074 on. A
quotient goes to the nearest number of that kind, a tie to the even one, and
what lies beyond the largest goes to infinity.
-/

namespace DecisionCycle.Number

/-- A quotient rounded to the nearest natural number, a tie to the even one. -/
def roundDiv (top bottom : Nat) : Nat :=
  let q := top / bottom
  let r := top % bottom
  if 2 * r < bottom then q
  else if bottom < 2 * r then q + 1
  else if q % 2 = 0 then q else q + 1

def scaled (top bottom : Nat) : Int → Nat × Nat
  | .ofNat k => (top, bottom * Nat.pow 2 k)
  | .negSucc k => (top * Nat.pow 2 (k + 1), bottom)

/-- The exponent that leaves 53 binary digits of a positive quotient before the
point, or the least exponent there is. -/
def exponentFor (top bottom : Nat) : Int :=
  let guess := (Nat.log2 top : Int) - Nat.log2 bottom - 52
  let (a, b) := scaled top bottom guess
  let exponent := if a < b * Nat.pow 2 52 then guess - 1 else guess
  max exponent (-1074)

/-- The double-precision number nearest to a quotient. -/
def nearest (negative : Bool) (top bottom : Nat) : Number :=
  if top = 0 then .finite negative 0 0
  else
    let exponent := exponentFor top bottom
    let (a, b) := scaled top bottom exponent
    let mantissa := roundDiv a b
    let (mantissa, exponent) :=
      if mantissa = Nat.pow 2 53 then (Nat.pow 2 52, exponent + 1) else (mantissa, exponent)
    if 971 < exponent then .infinite negative
    else .finite negative mantissa exponent

/-- The number nearest to `±digits · 10 ^ exponent`. Exponents far outside the
range are cut first, so that no huge power is computed. -/
def ofDecimal (negative : Bool) (digits : Nat) (exponent : Int) : Number :=
  let size : Int := (Nat.log2 digits : Int) / 3 + 1
  if digits = 0 then .finite negative 0 0
  else if 400 < exponent then .infinite negative
  else if exponent + size < -400 then .finite negative 0 0
  else
    match exponent with
    | .ofNat k => nearest negative (digits * Nat.pow 10 k) 1
    | .negSucc k => nearest negative digits (Nat.pow 10 (k + 1))

def plus (x y : Number) : Number :=
  match x.ratio?, y.ratio? with
  | some (a, b), some (c, d) => nearest false (a * d + c * b).toNat (b * d)
  | _, _ => .infinite false

def times (x y : Number) : Number :=
  match x.ratio?, y.ratio? with
  | some (a, b), some (c, d) => nearest false (a * c).toNat (b * d)
  | _, _ => .infinite false

def signed (negative : Bool) : Number → Number
  | .nan => .nan
  | .infinite _ => .infinite negative
  | .finite _ mantissa exponent => .finite negative mantissa exponent

end DecisionCycle.Number
