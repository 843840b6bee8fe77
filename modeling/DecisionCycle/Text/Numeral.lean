import DecisionCycle.Text.Blank
import DecisionCycle.Text.Digit

/-!
Integers written by people: blanks around, at most one sign, decimal digits of
any script (even of several), single underscores between digits, leading zeros.
Numbers of thousands of digits are not read, nor are they written.
-/

namespace DecisionCycle.Text

/-- The most decimal digits with which integers are read and written. -/
def digitLimit : Nat := 4300

/-- Whether a character may stand around a number. The information separators
may not, though they are blanks. -/
def isMargin (c : Char) : Bool :=
  isBlank c && !(0x1C ≤ c.toNat && c.toNat ≤ 0x1F)

def dropMargins (s : List Char) : List Char :=
  ((s.dropWhile isMargin).reverse.dropWhile isMargin).reverse

def ofDigits (digits : List Nat) : Nat :=
  digits.foldl (fun n d => 10 * n + d) 0

/-- The digits after the first one, each with at most one underscore before it. -/
def moreDigits? : List Char → Option (List Nat)
  | [] => some []
  | '_' :: c :: rest => do return (← digit? c) :: (← moreDigits? rest)
  | c :: rest => do return (← digit? c) :: (← moreDigits? rest)

def digits? : List Char → Option (List Nat)
  | [] => none
  | c :: rest => do return (← digit? c) :: (← moreDigits? rest)

def numeral? (s : List Char) : Option Nat :=
  ((digits? s).filter fun ds => ds.length ≤ digitLimit).map ofDigits

def integer? (s : List Char) : Option Int :=
  match dropMargins s with
  | '-' :: rest => (numeral? rest).map fun n => -(n : Int)
  | '+' :: rest => (numeral? rest).map fun n => (n : Int)
  | rest => (numeral? rest).map fun n => (n : Int)

end DecisionCycle.Text
