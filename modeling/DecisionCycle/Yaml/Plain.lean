import DecisionCycle.Number.Text
import DecisionCycle.Text.Numeral
import DecisionCycle.Value
import DecisionCycle.Yaml.Fault

/-!
What a plain scalar of a document stands for: nothing, a truth value, a number
with a point, an integer, a day, a point in time, or itself. Underscores between
digits mean nothing. Numbers may be written to the base of sixty, with colons
between the places.
-/

namespace DecisionCycle.Yaml

def nullWords : List String :=
  ["", "~", "null", "Null", "NULL"]

def trueWords : List String :=
  ["true", "True", "TRUE", "yes", "Yes", "YES", "on", "On", "ON"]

def falseWords : List String :=
  ["false", "False", "FALSE", "no", "No", "NO", "off", "Off", "OFF"]

def infinityWords : List String :=
  [".inf", ".Inf", ".INF"]

def nanWords : List String :=
  [".nan", ".NaN", ".NAN"]

/-! ### Numbers -/

def dropUnderscores (s : List Char) : List Char :=
  s.filter (· != '_')

def isDigitOf (base : Nat) (c : Char) : Bool :=
  (Text.asciiDigit? base c).isSome || c == '_'

def natural (base : Nat) (s : List Char) : Except Fault Nat :=
  match Text.natural? base s with
  | some n => if base = 10 ∧ Text.digitLimit < s.length then .error .noNumber else .ok n
  | none => .error .noNumber

def isPlace : List Char → Bool
  | [c] => Text.isAsciiDigit c
  | [c, d] => '0' ≤ c && c ≤ '5' && Text.isAsciiDigit d
  | _ => false

/-- An integer without its sign. A leading zero makes it octal, `0b` binary and
`0x` hexadecimal. A text of another form is none. -/
def magnitude? (s : List Char) : Option (Except Fault Nat) :=
  let inBase (base : Nat) (digits : List Char) : Option (Except Fault Nat) :=
    if !digits.isEmpty && digits.all (isDigitOf base) then
      some (natural base (dropUnderscores digits))
    else none
  match s with
  | '0' :: 'b' :: digits => inBase 2 digits
  | '0' :: 'x' :: digits => inBase 16 digits
  | '0' :: _ => inBase 8 s
  | '_' :: _ => none
  | _ =>
    match s.splitOn ':' with
    | [] => none
    | [digits] => inBase 10 digits
    | first :: places =>
      if places.all isPlace then
        (inBase 10 first).map fun read => do
          let n ← read
          return (← places.mapM (natural 10)).foldl (fun n place => 60 * n + place) n
      else none

def integer? (s : List Char) : Option (Except Fault Int) :=
  let (negative, rest) := Number.readSign s
  (magnitude? rest).map fun read => read.map fun n => if negative then -(n : Int) else n

def isExponent : List Char → Bool
  | [] => true
  | e :: sign :: digits =>
      (e == 'e' || e == 'E') && (sign == '+' || sign == '-') && !digits.isEmpty &&
        digits.all Text.isAsciiDigit
  | _ => false

/-- Whether a text without sign is a decimal with a point: digits before the
point, or at least one after it. -/
def isDecimal (s : List Char) : Bool :=
  let whole := s.takeWhile (isDigitOf 10)
  match s.dropWhile (isDigitOf 10) with
  | '.' :: rest =>
    let places := rest.takeWhile (isDigitOf 10)
    let first := if whole.isEmpty then places.head? else whole.head?
    first.any Text.isAsciiDigit && isExponent (rest.dropWhile (isDigitOf 10))
  | _ => false

def sixtieths? (s : List Char) : Option (List Number) :=
  let isFirst (part : List Char) : Bool :=
    part.head?.any Text.isAsciiDigit && part.all (isDigitOf 10)
  let isLast (part : List Char) : Bool :=
    isPlace (part.takeWhile (· != '.')) &&
      match part.dropWhile (· != '.') with
      | '.' :: fraction => fraction.all (isDigitOf 10)
      | _ => false
  match s.splitOn ':' with
  | first :: places =>
    if places.isEmpty ∨ !isFirst first ∨ !places.dropLast.all isPlace ∨
        !places.getLast?.any isLast then none
    else (first :: places).mapM fun part => Number.ofText? (dropUnderscores part)
  | [] => none

def sumOfPlaces (sum : Number) (unit : Nat) : List Number → Except Fault Number
  | [] => .ok sum
  | place :: rest =>
    match Number.nearest false unit 1 with
    | .infinite _ => .error .tooManyPlaces
    | x => sumOfPlaces (sum.plus (place.times x)) (60 * unit) rest

/-- The number with a point that a plain scalar writes, if it has the form of
one. A sign needs digits before the point, or an infinity. -/
def decimal? (s : List Char) : Option (Except Fault Number) :=
  let (negative, rest) := Number.readSign s
  let isSigned := rest.length < s.length
  let word := String.ofList rest
  if infinityWords.contains word then some (.ok (.infinite negative))
  else if nanWords.contains word ∧ ¬isSigned then some (.ok .nan)
  else if isDecimal rest ∧ ¬(isSigned ∧ rest.head? = some '.') then
    (Number.ofText? (dropUnderscores s)).map .ok
  else
    (sixtieths? rest).map fun parts => do
      return (← sumOfPlaces (.finite false 0 0) 1 parts.reverse).signed negative

/-! ### Days and points in time -/

/-- The number written by the decimal digits at the start of a text, at least
`least` and at most `most` of them, and what follows. -/
def readNumber? (least most : Nat) (s : List Char) : Option (Nat × List Char) :=
  let digits := (s.take most).takeWhile Text.isAsciiDigit
  if digits.length < least then none
  else (Text.natural? 10 digits).map fun n => (n, s.drop digits.length)

def after? (c : Char) : List Char → Option (List Char)
  | [] => none
  | x :: rest => if x = c then some rest else none

def readDate? (least : Nat) (s : List Char) : Option (Date × List Char) := do
  let (year, s) ← readNumber? 4 4 s
  let (month, s) ← readNumber? least 2 (← after? '-' s)
  let (day, s) ← readNumber? least 2 (← after? '-' s)
  return (⟨year, month, day⟩, s)

def readMicros (s : List Char) : Nat × List Char :=
  match s with
  | '.' :: rest =>
    let digits := rest.takeWhile Text.isAsciiDigit
    ((Text.natural? 10 ((digits ++ List.replicate 6 '0').take 6)).getD 0,
      rest.drop digits.length)
  | _ => (0, s)

def readClock? (s : List Char) : Option (Clock × List Char) := do
  let (hour, s) ← readNumber? 1 2 s
  let (minute, s) ← readNumber? 2 2 (← after? ':' s)
  let (second, s) ← readNumber? 2 2 (← after? ':' s)
  let (micro, s) := readMicros s
  return (⟨hour, minute, second, micro⟩, s)

def readMinutes? (s : List Char) : Option Nat := do
  let (hours, s) ← readNumber? 1 2 s
  match s with
  | [] => return 60 * hours
  | _ =>
    let (minutes, s) ← readNumber? 2 2 (← after? ':' s)
    if s.isEmpty then return 60 * hours + minutes else none

def readOffset? (s : List Char) : Option (Option Int) :=
  match s.dropWhile (· == ' ') with
  | ['Z'] => some (some 0)
  | '+' :: rest => (readMinutes? rest).map fun n => some (n * 60000000 : Int)
  | '-' :: rest => (readMinutes? rest).map fun n => some (-(n * 60000000 : Int))
  | [] => if s.isEmpty then some none else none
  | _ => none

def readTime? (s : List Char) : Option (Date × Clock × Option Int) := do
  let (date, s) ← readDate? 1 s
  let s ←
    match s with
    | 'T' :: rest => some rest
    | 't' :: rest => some rest
    | ' ' :: rest => some (rest.dropWhile (· == ' '))
    | _ => none
  let (clock, s) ← readClock? s
  return (date, clock, ← readOffset? s)

/-- The day or the point in time that a plain scalar writes, if it has the form
of one. -/
def moment? (s : List Char) : Option (Except Fault Value) :=
  match readDate? 2 s with
  | some (date, []) => some (if date.Exists then .ok (.date date) else .error .noTimestamp)
  | _ =>
    (readTime? s).map fun (date, clock, offset) =>
      match Timestamp.ofParts? date clock offset with
      | some t => .ok (.time t)
      | none => .error .noTimestamp

/-! ### Any plain scalar -/

def takeoverWord : List Char := "<<".toList

/-- The word for the value of a mapping, which has no meaning of its own. -/
def valueWord : List Char := "=".toList

def plainValue (s : List Char) : Except Fault Value :=
  let word := String.ofList s
  if s = takeoverWord ∨ s = valueWord then .error .malformed
  else if nullWords.contains word then .ok .null
  else if trueWords.contains word then .ok (.bool true)
  else if falseWords.contains word then .ok (.bool false)
  else
    match decimal? s, integer? s, moment? s with
    | some x, _, _ => x.map .float
    | _, some n, _ => n.map .int
    | _, _, some v => v
    | _, _, _ => .ok (.str word)

end DecisionCycle.Yaml
