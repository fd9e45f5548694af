/-!
# Points in time of the calendar

A date of the proleptic Gregorian calendar and a time of day, both in universal time. A leap second
is the last second of a minute with a fraction of a whole second or more.
-/

namespace NodeScrape

/-- A year with a day more. -/
def isLeapYear (year : Int) : Bool :=
  year % 4 = 0 && (year % 100 != 0 || year % 400 = 0)

/-- The number of days of a month. -/
def daysInMonth (year : Int) (month : Nat) : Nat :=
  if month = 2 then if isLeapYear year then 29 else 28
  else if month = 4 ∨ month = 6 ∨ month = 9 ∨ month = 11 then 30
  else 31

/-- The dates that exist; years have at most six digits. -/
def IsDate (year : Int) (month day : Nat) : Prop :=
  -262143 ≤ year ∧ year ≤ 262142 ∧ 1 ≤ month ∧ month ≤ 12 ∧ 1 ≤ day ∧ day ≤ daysInMonth year month

instance (year : Int) (month day : Nat) : Decidable (IsDate year month day) := by
  unfold IsDate
  infer_instance

/-- A date. -/
structure Date where
  /-- The year, negative before the year zero. -/
  year : Int
  /-- The month, from one on. -/
  month : Nat
  /-- The day of the month, from one on. -/
  day : Nat
  valid : IsDate year month day
  deriving DecidableEq

namespace Date

/-- The date of a year, month and day. -/
def of? (year : Int) (month day : Nat) : Option Date :=
  if h : IsDate year month day then some ⟨year, month, day, h⟩ else none

/-- The day after, unless the calendar ends. -/
def next? (d : Date) : Option Date :=
  if d.day < daysInMonth d.year d.month then of? d.year d.month (d.day + 1)
  else if d.month < 12 then of? d.year (d.month + 1) 1
  else of? (d.year + 1) 1 1

/-- The day before, unless the calendar begins. -/
def prev? (d : Date) : Option Date :=
  if 1 < d.day then of? d.year d.month (d.day - 1)
  else if 1 < d.month then of? d.year (d.month - 1) (daysInMonth d.year (d.month - 1))
  else of? (d.year - 1) 12 31

end Date

/-- Seconds in one day. -/
def secondsPerDay : Nat := 86400

/-- The fractions of a second that exist at a second of the day. -/
def IsFraction (second nanos : Nat) : Prop :=
  nanos < 1000000000 ∨ second % 60 = 59 ∧ nanos < 2000000000

instance (second nanos : Nat) : Decidable (IsFraction second nanos) := by
  unfold IsFraction
  infer_instance

/-- A point in time. -/
structure Timestamp where
  /-- The date. -/
  date : Date
  /-- The second of the day. -/
  second : Nat
  /-- The fraction of the second in nanoseconds, from a whole second on for a leap second. -/
  nanos : Nat
  second_lt : second < secondsPerDay
  fraction : IsFraction second nanos
  deriving DecidableEq

namespace Timestamp

/-- The point in time of a local date and time, `offset` seconds ahead of universal time. Offsets
are less than a day. -/
def ofLocal? (date : Date) (second nanos : Nat) (offset : Int) : Option Timestamp := do
  let shifted := (second : Int) - offset
  let date ←
    if shifted < 0 then date.prev?
    else if (secondsPerDay : Int) ≤ shifted then date.next?
    else some date
  let second := (shifted % secondsPerDay).toNat
  if h : second < secondsPerDay ∧ IsFraction second nanos then
    some ⟨date, second, nanos, h.1, h.2⟩
  else none

/-- Decimal digits with zeros on the left. -/
def padded (width n : Nat) : List Char :=
  let digits := Nat.toDigits 10 n
  List.replicate (width - digits.length) '0' ++ digits

/-- A year has four digits, and a sign where it has more or is negative. -/
def yearText (year : Int) : List Char :=
  if 0 ≤ year ∧ year ≤ 9999 then padded 4 year.toNat
  else (if year < 0 then '-' else '+') :: padded 4 year.natAbs

/-- The fraction of a second has as many groups of three digits as it needs. -/
def fractionText (nanos : Nat) : List Char :=
  if nanos = 0 then []
  else if nanos % 1000000 = 0 then '.' :: padded 3 (nanos / 1000000)
  else if nanos % 1000 = 0 then '.' :: padded 6 (nanos / 1000)
  else '.' :: padded 9 nanos

/-- The characters of a point in time: date, `T`, time of day, `Z`. A leap second is second 60. -/
def chars (t : Timestamp) : List Char :=
  let leap := t.nanos / 1000000000
  yearText t.date.year ++ '-' :: padded 2 t.date.month ++ '-' :: padded 2 t.date.day ++
    'T' :: padded 2 (t.second / 3600) ++ ':' :: padded 2 (t.second / 60 % 60) ++
    ':' :: padded 2 (t.second % 60 + leap) ++ fractionText (t.nanos % 1000000000) ++ ['Z']

/-- The text of a point in time. -/
def text (t : Timestamp) : String := String.ofList t.chars

end Timestamp

end NodeScrape
