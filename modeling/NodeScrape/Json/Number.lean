import NodeScrape.Json.Value
import NodeScrape.Binary64.Basic

/-!
# The values of JSON numbers

Whole numbers within 64 bits are exact. Any other number is a significand of at most 64 bits, from
its leading digits, multiplied or divided once by a power of ten.
-/

namespace NodeScrape.Json

/-- The value of a number. -/
inductive Number where
  /-- A whole number from zero on, within 64 bits. -/
  | unsigned (value : Nat)
  /-- A whole number below zero, within 64 bits. -/
  | signed (value : Int)
  /-- Any other number. -/
  | float (value : Binary64)
  deriving DecidableEq

/-- Appends leading digits to a significand while it stays within 64 bits, and counts them. -/
def gather : Nat → List Nat → Nat × Nat
  | significand, [] => (significand, 0)
  | significand, d :: rest =>
    if significand * 10 + d < UInt64.size then
      let (s, n) := gather (significand * 10 + d) rest
      (s, n + 1)
    else (significand, 0)

/-- The greatest power of ten that is tabulated. -/
def greatestPower : Nat := 308

/-- A power of ten as a binary64 number. -/
def power (k : Nat) : Binary64 := Binary64.ofNat (Nat.pow 10 k)

/-- Scales a number by a power of ten, in steps of the greatest tabulated power when the exponent is
less than its negation. Nothing but zero can be scaled up beyond the table. -/
def scale : Nat → Binary64 → Int → Option Binary64
  | 0, x, _ => some x
  | fuel + 1, x, e =>
    if e.natAbs ≤ greatestPower then
      let scaled := if 0 ≤ e then x.mul (power e.natAbs) else x.div (power e.natAbs)
      if scaled.isFinite then some scaled else none
    else if x = Binary64.zero then some x
    else if 0 ≤ e then none
    else scale fuel (x.div (power greatestPower)) (e + greatestPower)

/-- The value of a spelled number; a number that is too large has none. Three steps bring every
significand down to zero. -/
def NumberToken.value? (t : NumberToken) : Option Number :=
  let (whole, used) := gather 0 t.whole
  if t.fraction.isEmpty && t.exponent.isNone && used = t.whole.length then
    if !t.negative then some (.unsigned whole)
    else if whole = 0 || Nat.pow 2 63 < whole then some (.float (Binary64.ofNat whole).neg)
    else some (.signed (-whole))
  else
    let (significand, after) := gather whole t.fraction
    let e := ((t.whole.length - used : Nat) : Int) - after + t.exponent.getD 0
    (scale 4 (Binary64.ofNat significand) e).map fun x =>
      .float (if t.negative then x.neg else x)

end NodeScrape.Json
