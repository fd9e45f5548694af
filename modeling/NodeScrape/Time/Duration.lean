import NodeScrape.Binary64.Basic

/-!
# Lengths of time

Durations and instants of a monotone clock count whole nanoseconds, so they add and compare as
natural numbers.
-/

namespace NodeScrape

/-- A length of time in nanoseconds. -/
abbrev Duration := Nat

/-- A moment of a monotone clock, in nanoseconds from its start. -/
abbrev Instant := Nat

namespace Duration

/-- Nanoseconds in one second. -/
def perSecond : Nat := 1000000000

/-- Nanoseconds in one millisecond. -/
def perMilli : Nat := 1000000

/-- Nanoseconds in one microsecond. -/
def perMicro : Nat := 1000

/-- A duration of whole seconds and further nanoseconds. -/
def ofParts (seconds nanos : Nat) : Duration := seconds * perSecond + nanos

/-- A duration of whole milliseconds. -/
def ofMillis (n : Nat) : Duration := n * perMilli

/-- The whole seconds. -/
def seconds (d : Duration) : Nat := d / perSecond

/-- The nanoseconds beyond the whole seconds. -/
def subsecond (d : Duration) : Nat := d % perSecond

/-- The seconds as a binary64 number: the whole seconds and the fraction are rounded apart, then
their sum. -/
def toSeconds (d : Duration) : Binary64 :=
  (Binary64.ofNat (seconds d)).add (Binary64.ofRatio false (subsecond d) perSecond)

/-- A whole number of units and a fraction of `width` digits, without zeros at its end. -/
private def withFraction (whole fraction width : Nat) : List Char :=
  let digits := Nat.toDigits 10 fraction
  let padded := List.replicate (width - digits.length) '0' ++ digits
  let shown := (padded.reverse.dropWhile (· = '0')).reverse
  Nat.toDigits 10 whole ++ if shown.isEmpty then [] else '.' :: shown

/-- A duration in the largest unit of which it holds at least one. -/
def text (d : Duration) : String :=
  if perSecond ≤ d then String.ofList (withFraction (d / perSecond) (d % perSecond) 9) ++ "s"
  else if perMilli ≤ d then String.ofList (withFraction (d / perMilli) (d % perMilli) 6) ++ "ms"
  else if perMicro ≤ d then String.ofList (withFraction (d / perMicro) (d % perMicro) 3) ++ "µs"
  else Nat.repr d ++ "ns"

end Duration

end NodeScrape
