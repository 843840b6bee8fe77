import DecisionCycle.Text.Printable

/-!
Quoted text, as messages show it: in single quotes, or in double quotes where
that saves escaping a single one.
-/

namespace DecisionCycle.Text

def hexDigits (width n : Nat) : List Char :=
  let digits := Nat.toDigits 16 n
  List.replicate (width - digits.length) '0' ++ digits

/-- A code point by its number: two, four or eight hexadecimal digits. -/
def escapedCode (p : CodePoint) : List Char :=
  let n := p.toNat
  if n ≤ 0xFF then '\x5c' :: 'x' :: hexDigits 2 n
  else if n ≤ 0xFFFF then '\x5c' :: 'u' :: hexDigits 4 n
  else '\x5c' :: 'U' :: hexDigits 8 n

def escaped (quote : Char) : CodePoint → List Char
  | .half n => escapedCode (.half n)
  | .char c =>
    if c = quote ∨ c = '\x5c' then ['\x5c', c]
    else if c = '\n' then ['\x5c', 'n']
    else if c = '\r' then ['\x5c', 'r']
    else if c = '\t' then ['\x5c', 't']
    else if isPrintable (.char c) then [c]
    else escapedCode (.char c)

/-- The quote for a text: single, unless it holds single quotes and no double
one. -/
def quoteFor (t : Text) : Char :=
  if .char '\x27' ∈ t.points ∧ .char '\x22' ∉ t.points then '\x22' else '\x27'

def quoted (t : Text) : List Char :=
  let quote := quoteFor t
  quote :: (t.points.flatMap (escaped quote) ++ [quote])

end DecisionCycle.Text
