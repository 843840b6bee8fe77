/-!
Points in time on the Gregorian calendar, to the microsecond, with or without an
offset from universal time. Only dates that exist and times within a day are
timestamps.
-/

namespace DecisionCycle

def isLeapYear (year : Nat) : Bool :=
  year % 4 == 0 && (year % 100 != 0 || year % 400 == 0)

def monthLengths (year : Nat) : List Nat :=
  [31, if isLeapYear year then 29 else 28, 31, 30, 31, 30, 31, 31, 30, 31, 30, 31]

def daysInMonth (year month : Nat) : Nat :=
  match month with
  | 0 => 0
  | m + 1 => (monthLengths year)[m]?.getD 0

structure Date where
  year : Nat
  month : Nat
  day : Nat
  deriving DecidableEq

namespace Date

/-- The date is a real day of the years 1 to 9999. -/
def Exists (d : Date) : Prop :=
  1 ≤ d.year ∧ d.year ≤ 9999 ∧ 1 ≤ d.day ∧ d.day ≤ daysInMonth d.year d.month

instance (d : Date) : Decidable d.Exists :=
  inferInstanceAs (Decidable (_ ∧ _ ∧ _ ∧ _))

def yearLength (year : Nat) : Nat :=
  if isLeapYear year then 366 else 365

def daysBeforeYear (year : Nat) : Nat :=
  let past := year - 1
  365 * past + past / 4 - past / 100 + past / 400

def ordinal (d : Date) : Nat :=
  let months := (monthLengths d.year).take (d.month - 1)
  daysBeforeYear d.year + months.foldr (· + ·) 0 + (d.day - 1)

def firstWeekday (year : Nat) : Nat :=
  daysBeforeYear year % 7

/-- The month and the day of the month that lie `n` days after the first day of
month `month`, given the lengths of the months from there on. -/
def monthAndDay (month n : Nat) : List Nat → Nat × Nat
  | [] => (month, n + 1)
  | length :: rest =>
      if n < length then (month, n + 1) else monthAndDay (month + 1) (n - length) rest

def ofDayOfYear (year n : Nat) : Date :=
  let (month, day) := monthAndDay 1 n (monthLengths year)
  ⟨year, month, day⟩

/-- How many weeks a year has: 53 if it begins on a Thursday, or on a Wednesday
in a leap year. -/
def weeksInYear (year : Nat) : Nat :=
  let first := firstWeekday year
  if first = 3 ∨ (first = 2 ∧ isLeapYear year) then 53 else 52

/-- The date of a day of a numbered week. Week one is the week with the year's
first Thursday, and day one is its Monday, so a week date may lie in the year
before or after. -/
def ofWeek? (year week day : Nat) : Option Date :=
  if year = 0 ∨ week = 0 ∨ weeksInYear year < week ∨ day = 0 ∨ 7 < day then none
  else
    let first := firstWeekday year
    let elapsed := 7 * (week - 1) + (day - 1)
    let start := if first ≤ 3 then elapsed else elapsed + 7
    if start < first then
      some (ofDayOfYear (year - 1) (yearLength (year - 1) + start - first))
    else if start - first < yearLength year then
      some (ofDayOfYear year (start - first))
    else some (ofDayOfYear (year + 1) (start - first - yearLength year))

end Date

/-- Hours, minutes, seconds and microseconds, as written on a clock or in an
offset. -/
structure Clock where
  hour : Nat
  minute : Nat
  second : Nat
  micro : Nat
  deriving DecidableEq

namespace Clock

def Exists (c : Clock) : Prop :=
  c.hour < 24 ∧ c.minute < 60 ∧ c.second < 60 ∧ c.micro < 1000000

instance (c : Clock) : Decidable c.Exists :=
  inferInstanceAs (Decidable (_ ∧ _ ∧ _ ∧ _))

def micros (c : Clock) : Nat :=
  ((c.hour * 60 + c.minute) * 60 + c.second) * 1000000 + c.micro

def ofMicros (n : Nat) : Clock :=
  { hour := n / 3600000000
    minute := n / 60000000 % 60
    second := n / 1000000 % 60
    micro := n % 1000000 }

def midnight : Clock := ⟨0, 0, 0, 0⟩

end Clock

def dayMicros : Nat := 86400000000

/-- A point in time. The offset counts microseconds east of universal time, and
is less than a day; without one the time is local to an unknown place. -/
structure Timestamp where
  date : Date
  clock : Clock
  offset : Option Int
  valid : date.Exists ∧ clock.Exists ∧ (offset.getD 0).natAbs < dayMicros
  deriving DecidableEq

namespace Timestamp

def ofParts? (date : Date) (clock : Clock) (offset : Option Int) : Option Timestamp :=
  if h : date.Exists ∧ clock.Exists ∧ (offset.getD 0).natAbs < dayMicros then
    some ⟨date, clock, offset, h⟩
  else none

/-- The same point in time, taken as universal time where it has no offset. -/
def assumeUtc (t : Timestamp) : Timestamp :=
  ⟨t.date, t.clock, some (t.offset.getD 0), t.valid⟩

/-- The microseconds from the beginning of year one, in universal time where there
is an offset. -/
def micros (t : Timestamp) : Int :=
  (t.date.ordinal * dayMicros + t.clock.micros : Nat) - t.offset.getD 0

/-- Whether two timestamps stand for the same point in time. Without an offset it
is never known to be the same as with one. -/
def isSame (t u : Timestamp) : Bool :=
  t.offset.isSome == u.offset.isSome && t.micros == u.micros

def millennium : Timestamp :=
  ⟨⟨2000, 1, 1⟩, Clock.midnight, some 0, by decide⟩

end Timestamp

end DecisionCycle
