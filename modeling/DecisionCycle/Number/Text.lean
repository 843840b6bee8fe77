import DecisionCycle.Number.Shortest
import DecisionCycle.Text.Digit

/-!
The written form of numbers. Printing uses the shortest digits, positionally as
long as the first digit stands for `10 ^ -4` to `10 ^ 15`, and always shows a
point or an exponent; reading takes the usual decimal notations.
-/

namespace DecisionCycle.Number

/-- Digits without the zeros at the end, and how many zeros these were. -/
def stripZeros (digits : List Char) : List Char × Nat :=
  let zeros := digits.reverse.takeWhile (· == '0')
  ((digits.reverse.dropWhile (· == '0')).reverse, zeros.length)

def exponentText (e : Int) : List Char :=
  let digits := Nat.toDigits 10 e.natAbs
  let sign := if e < 0 then '-' else '+'
  'e' :: sign :: (List.replicate (2 - digits.length) '0' ++ digits)

/-- Digits with a point before which `point` of them stand. -/
def positional (digits : List Char) : Int → List Char
  | .ofNat 0 => '0' :: '.' :: digits
  | .ofNat point =>
      if digits.length ≤ point then
        digits ++ List.replicate (point - digits.length) '0' ++ ['.', '0']
      else digits.take point ++ '.' :: digits.drop point
  | .negSucc k => '0' :: '.' :: (List.replicate (k + 1) '0' ++ digits)

def scientific (digits : List Char) (e : Int) : List Char :=
  match digits with
  | [] => []
  | [d] => d :: exponentText e
  | d :: rest => d :: '.' :: (rest ++ exponentText e)

def magnitudeText (mantissa : Nat) (exponent : Int) : List Char :=
  if mantissa = 0 then ['0', '.', '0']
  else
    let (number, unit) := shortest mantissa exponent
    let (digits, zeros) := stripZeros (Nat.toDigits 10 number)
    let point := (digits.length : Int) + unit + zeros
    if -4 < point ∧ point ≤ 16 then positional digits point
    else scientific digits (point - 1)

def text : Number → String
  | .nan => "nan"
  | .infinite false => "inf"
  | .infinite true => "-inf"
  | .finite negative mantissa exponent =>
      String.ofList ((if negative then ['-'] else []) ++ magnitudeText mantissa exponent)

def readSign : List Char → Bool × List Char
  | '-' :: rest => (true, rest)
  | '+' :: rest => (false, rest)
  | rest => (false, rest)

def readExponent? : List Char → Option Int
  | [] => some 0
  | c :: rest =>
      if c = 'e' ∨ c = 'E' then
        let (negative, digits) := readSign rest
        (Text.natural? 10 digits).map fun n => if negative then -(n : Int) else n
      else none

/-- A decimal without sign: digits with an optional point, and an optional
exponent. -/
def readMagnitude? (negative : Bool) (s : List Char) : Option Number := do
  let whole := s.takeWhile Text.isAsciiDigit
  let rest := s.dropWhile Text.isAsciiDigit
  let (places, rest) :=
    match rest with
    | '.' :: tail => (tail.takeWhile Text.isAsciiDigit, tail.dropWhile Text.isAsciiDigit)
    | _ => ([], rest)
  let digits ← Text.natural? 10 (whole ++ places)
  let exponent ← readExponent? rest
  return ofDecimal negative digits (exponent - places.length)

def ofText? (s : List Char) : Option Number :=
  let (negative, rest) := readSign s
  if rest = "inf".toList then some (.infinite negative)
  else if rest = "nan".toList then some .nan
  else readMagnitude? negative rest

end DecisionCycle.Number
