import NodeScrape.Text.Blank
import NodeScrape.Text.Scan
import NodeScrape.Time.Timestamp

/-!
# Lenient RFC 3339 text

Dates and times are read as RFC 3339 writes them, with some freedom: blanks may stand before a
number and a separator, numbers may be short, a year with a sign may be long, the separator of date
and time may be a blank, and offsets may lack their colon.
-/

namespace NodeScrape.Rfc3339

open NodeScrape.Text (Scan scanChar trimLeft isBlank)

/-- The value of decimal digits. -/
def natOf (digits : List Char) : Nat :=
  digits.foldl (fun n c => n * 10 + (c.toNat - '0'.toNat)) 0

/-- One to `width` decimal digits, and the rest. -/
def digitRun (width : Nat) (text : List Char) : Option (List Char × List Char) :=
  let run := (text.take width).takeWhile Char.isDigit
  if run.isEmpty then none else some (run, text.drop run.length)

/-- A number of at most two digits. -/
def shortNumber : Scan Nat := fun text => do
  let (digits, rest) ← digitRun 2 (trimLeft text)
  return (natOf digits, rest)

/-- A year: up to four digits, or any number of them behind a sign. Years beyond the calendar are
refused when the date is formed. -/
def year : Scan Int := fun text =>
  match trimLeft text with
  | '-' :: rest => do
    let (digits, rest) ← digitRun rest.length rest
    return (-(natOf digits : Int), rest)
  | '+' :: rest => do
    let (digits, rest) ← digitRun rest.length rest
    return ((natOf digits : Int), rest)
  | rest => do
    let (digits, rest) ← digitRun 4 rest
    return ((natOf digits : Int), rest)

/-- A separator, after blanks. -/
def separator (c : Char) : Scan Unit := fun text => scanChar c (trimLeft text)

/-- The fraction of a second in nanoseconds. Digits beyond the ninth are dropped. -/
def fraction : Scan Nat := fun text =>
  match text with
  | '.' :: rest => do
    let (digits, rest) ← digitRun 9 rest
    return (natOf digits * Nat.pow 10 (9 - digits.length), rest.dropWhile Char.isDigit)
  | _ => some (0, text)

/-- Two digits with nothing before them. -/
def twoDigits : Scan Nat := fun text =>
  match text with
  | a :: b :: rest => if a.isDigit && b.isDigit then some (natOf [a, b], rest) else none
  | _ => none

/-- The minutes of an offset: two digits, below sixty. -/
def offsetMinutes : Scan Nat := fun text => do
  let (minutes, rest) ← twoDigits text
  if minutes < 60 then some (minutes, rest) else none

/-- An offset in seconds behind its sign. Blanks and colons may part hours and minutes. -/
def signedOffset (negative : Bool) : Scan Int := fun text => do
  let (hours, rest) ← twoDigits text
  let (minutes, rest) ← offsetMinutes (rest.dropWhile fun c => c = ':' || isBlank c)
  let seconds : Int := (hours * 3600 + minutes * 60 : Nat)
  return (if negative then -seconds else seconds, rest)

/-- Whether a text begins with the name of universal time, in any case. -/
def isUtc (text : List Char) : Bool := (text.take 3).map Char.toLower = ['u', 't', 'c']

/-- The offset from universal time, less than a day. -/
def offset : Scan Int := fun text =>
  let text := trimLeft text
  if isUtc text then some (0, text.drop 3)
  else match text with
    | [] => none
    | c :: rest =>
      if c = 'Z' ∨ c = 'z' then some (0, rest)
      else do
        let (seconds, rest) ←
          if c = '+' then signedOffset false rest
          else if c = '-' ∨ c = '−' then signedOffset true rest
          else none
        if seconds.natAbs < secondsPerDay then some (seconds, rest) else none

/-- A date. -/
def date : Scan Date := fun text => do
  let (year, text) ← year text
  let ((), text) ← separator '-' text
  let (month, text) ← shortNumber text
  let ((), text) ← separator '-' text
  let (day, text) ← shortNumber text
  return (← Date.of? year month day, text)

/-- A time of day: its second and nanoseconds. Second 60 is a leap second of the second before. -/
def timeOfDay : Scan (Nat × Nat) := fun text => do
  let (hour, text) ← shortNumber text
  let ((), text) ← separator ':' text
  let (minute, text) ← shortNumber text
  let ((), text) ← separator ':' text
  let (second, text) ← shortNumber text
  let (nanos, text) ← fraction text
  guard (hour < 24 ∧ minute < 60 ∧ second ≤ 60)
  let time := hour * 3600 + minute * 60
  if second = 60 then return ((time + 59, 1000000000 + nanos), text)
  else return ((time + second, nanos), text)

/-- Reads a whole text as a point in time. -/
def parse? (text : String) : Option Timestamp := do
  let (date, text) ← date text.toList
  let text ← match text with
    | c :: rest => if c = 'T' ∨ c = 't' ∨ c = ' ' then some rest else none
    | [] => none
  let ((second, nanos), text) ← timeOfDay text
  let (offset, text) ← offset text
  guard (trimLeft text).isEmpty
  Timestamp.ofLocal? date second nanos offset

end NodeScrape.Rfc3339
