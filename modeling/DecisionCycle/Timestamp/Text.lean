import DecisionCycle.Text
import DecisionCycle.Text.Digit
import DecisionCycle.Timestamp

/-!
Timestamps as text. Printing writes date, `T`, time and offset, the fraction of
a second only where it is not zero. Reading takes calendar dates and week dates,
with or without hyphens, and after any one separator a time of hours, minutes,
seconds and a fraction, with or without colons, and an offset. It is lenient
about what stands between the time and the offset.
-/

namespace DecisionCycle

open Text

def fixedDigits : Nat → Nat → List Char
  | 0, _ => []
  | width + 1, n => fixedDigits width (n / 10) ++ [digitChar n]

/-- The number written by the first `width` characters, all of them ASCII
digits, and what follows them. -/
def readDigits? (width : Nat) (s : List Char) : Option (Nat × List Char) :=
  if (s.take width).length = width then
    (natural? 10 (s.take width)).map fun n => (n, s.drop width)
  else none

namespace Date

def chars (d : Date) : List Char :=
  fixedDigits 4 d.year ++ '-' :: fixedDigits 2 d.month ++ '-' :: fixedDigits 2 d.day

def readWeekday? (hyphens : Bool) : List Char → Option Nat
  | [] => some 1
  | '-' :: rest =>
      if hyphens then
        match readDigits? 1 rest with
        | some (day, []) => some day
        | _ => none
      else none
  | rest =>
      if hyphens then none
      else
        match readDigits? 1 rest with
        | some (day, []) => some day
        | _ => none

/-- A date that fills the text: `YYYY-MM-DD`, `YYYYMMDD`, `YYYY-Www-D`,
`YYYYWwwD`, or a week date without its day. Whether the date exists is not
asked for calendar dates. -/
def ofChars? (s : List Char) : Option Date := do
  let (year, rest) ← readDigits? 4 s
  let (hyphens, rest) :=
    match rest with
    | '-' :: tail => (true, tail)
    | _ => (false, rest)
  match rest with
  | 'W' :: tail =>
    let (week, tail) ← readDigits? 2 tail
    let day ← readWeekday? hyphens tail
    ofWeek? year week day
  | _ =>
    let (month, tail) ← readDigits? 2 rest
    let tail ←
      match hyphens, tail with
      | true, '-' :: tail => some tail
      | true, _ => none
      | false, _ => some tail
    match readDigits? 2 tail with
    | some (day, []) => some ⟨year, month, day⟩
    | _ => none

/-- How many characters at the start of a timestamp belong to its date. Week
dates leave two readings where the separator is a hyphen or a digit. After
`YYYY-Www`, a hyphen before two digits is the separator. After `YYYYWww`, a
single digit is the day, and a longer run of digits begins with the separator if
its length is odd, since a time has its digits in pairs. -/
def width (s : List Char) : Nat :=
  match s.drop 4 with
  | '-' :: 'W' :: _ =>
      if s[8]? = some '-' ∧ !(s[10]?.any isAsciiDigit) then 10 else 8
  | '-' :: _ => 10
  | 'W' :: _ =>
      let run := ((s.drop 7).takeWhile isAsciiDigit).length
      if run = 1 ∨ (run ≠ 0 ∧ run % 2 = 0) then 8 else 7
  | _ => 8

end Date

namespace Clock

def fractionChars (micro : Nat) : List Char :=
  if micro = 0 then [] else '.' :: fixedDigits 6 micro

def chars (c : Clock) : List Char :=
  fixedDigits 2 c.hour ++ ':' :: fixedDigits 2 c.minute ++ ':' :: fixedDigits 2 c.second ++
    fractionChars c.micro

/-- The length of an offset as `HH:MM`, with seconds and fraction only where
they are not zero. -/
def offsetChars (c : Clock) : List Char :=
  let seconds :=
    if c.second = 0 ∧ c.micro = 0 then []
    else ':' :: fixedDigits 2 c.second ++ fractionChars c.micro
  fixedDigits 2 c.hour ++ ':' :: fixedDigits 2 c.minute ++ seconds

/-- Whether reading may stop before a text: at its end, or at a null. -/
def isFinished : List Char → Bool
  | [] => true
  | c :: _ => c == '\x00'

/-- The microseconds that a fraction writes, and whether the text is finished
after them. The first six characters are digits as far as there are any; digits
beyond them count for nothing. -/
def readFraction? (s : List Char) : Option (Nat × Bool) :=
  if (s.take 6).all isAsciiDigit then
    (natural? 10 ((s ++ List.replicate 6 '0').take 6)).map fun n =>
      (n, isFinished ((s.drop 6).dropWhile isAsciiDigit))
  else none

/-- At most `count` numbers of two digits, the microseconds of the fraction
after them, and whether the text is finished. The character after the first
number tells whether colons stand between the numbers. A fraction begins with a
point or a comma after any number; after the last one it may also begin with a
colon where there are colons, and without any mark where there are none. A
single character at the end is passed over, and leaves the text unfinished. -/
def readParts? : Nat → Option Bool → List Char → Option (List Nat × Nat × Bool)
  | 0, _, s => (readFraction? s).map fun fraction => ([], fraction)
  | count + 1, colons, s => do
    let (number, rest) ← readDigits? 2 s
    match rest with
    | [] => return ([number], 0, true)
    | [c] => if c.toNat < 0x80 then return ([number], 0, isFinished rest) else none
    | c :: more =>
      let colons := colons.getD (c == ':')
      let (numbers, fraction) ←
        if colons && c == ':' then readParts? count (some colons) more
        else if c == '.' || c == ',' then readParts? 0 (some colons) more
        else if colons then none
        else readParts? count (some colons) rest
      return (number :: numbers, fraction)

def ofChars? (s : List Char) : Option (Clock × Bool) :=
  (readParts? 3 none s).map fun (numbers, micro, finished) =>
    ({ hour := numbers.getD 0 0, minute := numbers.getD 1 0, second := numbers.getD 2 0, micro },
      finished)

end Clock

namespace Timestamp

def offsetText (offset : Int) : List Char :=
  (if offset < 0 then '-' else '+') :: (Clock.ofMicros offset.natAbs).offsetChars

def chars (t : Timestamp) : List Char :=
  t.date.chars ++ 'T' :: t.clock.chars ++ (t.offset.map offsetText).getD []

def text (t : Timestamp) : String :=
  String.ofList t.chars

def beginsOffset (c : Char) : Bool :=
  c == '+' || c == '-' || c == 'Z'

/-- The length of an offset. One of less than a second is none. -/
def offsetMicros (c : Clock) : Nat :=
  if c.micros < 1000000 then 0 else c.micros

def readOffset? (s : List Char) : Option Nat :=
  match Clock.ofChars? s with
  | some (clock, true) => some (offsetMicros clock)
  | _ => none

/-- The time of day and the offset that a text writes. Without an offset the time
fills the text; before one, a stray character does no harm. -/
def readTime? (s : List Char) : Option (Clock × Option Int) := do
  let (clock, finished) ← Clock.ofChars? (s.takeWhile (!beginsOffset ·))
  match s.dropWhile (!beginsOffset ·) with
  | [] => if finished then return (clock, none) else none
  | '+' :: rest => return (clock, some (← readOffset? rest))
  | '-' :: rest => return (clock, some (-(← readOffset? rest : Int)))
  | _ :: rest => if Clock.isFinished rest then return (clock, some 0) else none

def ofChars? (s : List Char) : Option Timestamp := do
  let date ← Date.ofChars? (s.take (Date.width s))
  match s.drop (Date.width s) with
  | [] => ofParts? date Clock.midnight none
  | _ :: time =>
    let (clock, offset) ← readTime? time
    ofParts? date clock offset

/-- A text with the usual separator in the place of half of a surrogate pair, where one
stands right behind a date of seven, eight or ten characters. It is the one place in a
timestamp where such a half may stand. -/
def mendSeparator (t : Text) : Text :=
  match [7, 8, 10].find? fun n => t.points[n]?.any fun p => p.char?.isNone with
  | some n => ⟨t.points.set n (.char 'T')⟩
  | none => t

def ofText? (t : Text) : Option Timestamp :=
  (mendSeparator t).chars?.bind ofChars?

theorem mendSeparator_ofChars (s : List Char) : mendSeparator (ofChars s) = ofChars s := by
  have hwhole (n : Nat) : ((ofChars s).points[n]?.any fun p => p.char?.isNone) = false := by
    cases h : s[n]? <;> simp [ofChars, h, CodePoint.char?]
  simp [mendSeparator, hwhole]

theorem ofText?_ofChars (s : List Char) : ofText? (ofChars s) = ofChars? s := by
  rw [ofText?, mendSeparator_ofChars, chars?_ofChars, Option.bind_some]

end Timestamp

end DecisionCycle
