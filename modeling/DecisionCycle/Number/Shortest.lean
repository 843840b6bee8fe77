import DecisionCycle.Number.Rounding

/-!
The shortest decimal that reads back as a given number. For one digit, two
digits and so on up to seventeen, the two neighbours of the number on that
decimal grid are tried; the first grid with a hit wins, and of two hits the
nearer one, a tie going to the even digit.
-/

namespace DecisionCycle.Number

def decimalSize (n : Nat) : Nat :=
  (Nat.toDigits 10 n).length

/-- The exponent of the first decimal digit of a positive quotient: `p` with
`10 ^ p ≤ top / bottom < 10 ^ (p + 1)`. -/
def leadingExponent (top bottom : Nat) : Int :=
  if bottom ≤ top then (decimalSize (top / bottom) : Int) - 1
  else
    let size := decimalSize (bottom / top)
    if bottom = top * Nat.pow 10 (size - 1) then 1 - (size : Int) else -(size : Int)

def inUnits (top bottom : Nat) : Int → Nat × Nat
  | .ofNat k => (top, bottom * Nat.pow 10 k)
  | .negSucc k => (top * Nat.pow 10 (k + 1), bottom)

/-- The decimal with the given exponent that reads back as `x`, of the two next
to the quotient. -/
def onGrid? (x : Number) (top bottom : Nat) (exponent : Int) : Option Nat :=
  let (a, b) := inUnits top bottom exponent
  let below := a / b
  let near := roundDiv a b
  let far := if near = below then below + 1 else below
  [near, far].find? fun digits => (ofDecimal false digits exponent).eq x

/-- The shortest digits and their exponent, on grids of `size` digits and more;
seventeen digits always suffice. -/
def shortestFrom (x : Number) (top bottom : Nat) (leading : Int) (size : Nat) :
    Nat → Nat × Int
  | 0 => (0, 0)
  | tries + 1 =>
    let exponent := leading + 1 - size
    match onGrid? x top bottom exponent with
    | some digits => (digits, exponent)
    | none => shortestFrom x top bottom leading (size + 1) tries

/-- The shortest decimal `digits · 10 ^ exponent` that reads back as the
positive number `mantissa · 2 ^ exponent`. -/
def shortest (mantissa : Nat) (exponent : Int) : Nat × Int :=
  let (top, bottom) := fraction mantissa exponent
  shortestFrom (.finite false mantissa exponent) top bottom
    (leadingExponent top bottom) 1 17

end DecisionCycle.Number
