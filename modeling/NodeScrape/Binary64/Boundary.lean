import NodeScrape.Binary64.Decimal

/-!
# Decimal digits from 64-bit boundaries

The number and the two ends of its interval are multiplied by one tabulated power of ten with a
64-bit significand. Digits of the upper end are taken until the rest lies within the interval, and
the last one is lowered while that comes nearer to the number. The ends are moved inwards by one
unit for the errors of the products, so the digits always read back, but are now and then neither
the fewest nor the nearest.
-/

namespace NodeScrape

/-- A positive number with a 64-bit significand, worth `significand * 2 ^ exponent`. -/
structure Extended where
  /-- The significand, with its leading bit. -/
  significand : Nat
  /-- The exponent of two. -/
  exponent : Int
  deriving DecidableEq, Repr

namespace Extended

/-- Moves the leading bit of a significand to its place. -/
def normalize (significand : Nat) (exponent : Int) : Extended :=
  let up := 63 - significand.log2
  ⟨significand * Nat.pow 2 up, exponent - up⟩

/-- The 64-bit number nearest to `num / den`. -/
def ofRatio (num den : Nat) : Extended :=
  let up := 64 + den.log2
  let quotient := num * Nat.pow 2 up / den
  let down := quotient.log2 - 63
  let significand := roundHalfEven (num * Nat.pow 2 up) (den * Nat.pow 2 down)
  if significand = Nat.pow 2 64 then ⟨Nat.pow 2 63, down + 1 - up⟩ else ⟨significand, down - up⟩

/-- A power of ten. -/
def powerOfTen (k : Int) : Extended :=
  ofRatio (Nat.pow 10 k.toNat) (Nat.pow 10 (-k).toNat)

/-- The upper half of a product, rounded. -/
def mul (x y : Extended) : Extended :=
  ⟨(x.significand * y.significand + Nat.pow 2 63) / Nat.pow 2 64, x.exponent + y.exponent + 64⟩

end Extended

namespace Boundary

/-- The tabulated exponent of ten, one of every eighth, that brings a number with a 64-bit
significand and the binary exponent `e` between `2 ^ 4` and `2 ^ 32`. -/
def scaleFor (e : Int) : Int :=
  let k := -((-((-61 - e) * 30103)) / 100000) + 347
  8 * (k / 8 + 1) - 348

/-- Lowers the last of `digits` while the rest stays within the interval and comes nearer to the
number, which lies `gap` below the upper end. -/
def lower (gap width unit : Nat) : Nat → Nat → Nat → Nat
  | 0, digits, _ => digits
  | fuel + 1, digits, rest =>
    if rest < gap ∧ unit ≤ width - rest ∧ (rest + unit < gap ∨ rest + unit - gap < gap - rest) then
      lower gap width unit fuel (digits - 1) (rest + unit)
    else digits

/-- Digits after the point, each from ten times the rest; the interval widens with it. From the
ninth on the last digit is left alone. -/
def fraction (one : Nat) (gap : Nat) : Nat → Nat → Nat → Nat → Nat → Decimal
  | 0, digits, place, _, _ => ⟨digits, -(place : Int)⟩
  | fuel + 1, digits, place, rest, width =>
    let digit := rest * 10 / one
    let rest' := rest * 10 % one
    let width' := width * 10
    let digits' := digits * 10 + digit
    if rest' < width' then
      let gap' := if place + 1 < 9 then gap * Nat.pow 10 (place + 1) else 0
      ⟨lower gap' width' one 10 digits' rest', -((place + 1 : Nat) : Int)⟩
    else fraction one gap fuel digits' (place + 1) rest' width'

/-- Digits before the point, from the place `count - 1` down, then those after it. -/
def whole (one gap width : Nat) : Nat → Nat → Nat → Decimal
  | 0, digits, rest => fraction one gap 20 digits 0 rest width
  | count + 1, digits, rest =>
    let unit := Nat.pow 10 count * one
    let digits' := digits * 10 + rest / unit
    let rest' := rest % unit
    if rest' ≤ width then ⟨lower gap width unit 10 digits' rest', count⟩
    else whole one gap width count digits' rest'

end Boundary

open Boundary in
/-- The digits found between the boundaries of a nonzero number. -/
def Finite64.boundaryDigits (x : Finite64) : Decimal :=
  let e : Int := (x.shift : Int) - 1074
  let upper := Extended.normalize (2 * x.significand + 1) (e - 1)
  let (lowerSignificand, lowerExponent) :=
    if x.significand = Nat.pow 2 52 then (4 * x.significand - 1, e - 2)
    else (2 * x.significand - 1, e - 1)
  let lowerEnd : Extended :=
    ⟨lowerSignificand * Nat.pow 2 (lowerExponent - upper.exponent).toNat, upper.exponent⟩
  let ten := scaleFor upper.exponent
  let power := Extended.powerOfTen ten
  let value := (Extended.normalize x.significand e).mul power
  let high := (upper.mul power).significand - 1
  let low := (lowerEnd.mul power).significand + 1
  let one := Nat.pow 2 (-value.exponent).toNat
  let count := (Nat.toDigits 10 (high / one)).length
  let d := whole one (high - value.significand) (high - low) count 0 high
  ⟨d.digits, d.exponent - ten⟩

end NodeScrape
