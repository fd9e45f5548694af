import NodeScrape.Binary64.Basic

/-!
# Decimal digits of a binary64 number

A number is written with the fewest decimal digits that read back as the same number, and of those
with the nearest ones. The search is exact: it compares multiples of a power of ten with the two
ends of the interval that rounds to the number.
-/

namespace NodeScrape

/-- A positive decimal number `digits * 10 ^ exponent`. -/
structure Decimal where
  /-- The digits, read as one natural number. -/
  digits : Nat
  /-- The place of the last digit. -/
  exponent : Int
  deriving DecidableEq, Repr

/-- The numbers between `low / den` and `high / den`, around `value / den`. -/
structure RoundingInterval where
  /-- The lower end. -/
  low : Nat
  /-- The number itself. -/
  value : Nat
  /-- The upper end. -/
  high : Nat
  /-- The common denominator. -/
  den : Nat
  /-- Whether both ends belong to it. -/
  closed : Bool
  deriving DecidableEq, Repr

/-- The interval of real numbers that round to a finite number, in quarters of its last place: the
gap below the least significand of a binade is half as wide. -/
def Finite64.interval (x : Finite64) : RoundingInterval where
  low :=
    (4 * x.significand - if x.significand = Nat.pow 2 52 ∧ x.shift ≠ 0 then 1 else 2) *
      Nat.pow 2 x.shift
  value := 4 * x.significand * Nat.pow 2 x.shift
  high := (4 * x.significand + 2) * Nat.pow 2 x.shift
  den := 4 * unitsInOne
  closed := x.significand % 2 = 0

/-- The least scale `j` from `start` on, within `fuel` steps, with `den ≤ num * 10 ^ j`. -/
def leastScale (num den : Nat) : Nat → Nat → Nat
  | 0, j => j
  | fuel + 1, j => if den ≤ num * Nat.pow 10 j then j else leastScale num den fuel (j + 1)

/-- The place of the first decimal digit of `num / den`. No number lies below `10 ^ -324`. -/
def leadingPlace (num den : Nat) : Int :=
  if den ≤ num then ((Nat.toDigits 10 (num / den)).length : Int) - 1
  else -(leastScale num den 324 1 : Nat)

namespace RoundingInterval

/-- Whether `c * 10 ^ e` rounds to the number. -/
def contains (r : RoundingInterval) (c : Nat) (e : Int) : Bool :=
  let up := c * Nat.pow 10 e.toNat * r.den
  let down := Nat.pow 10 (-e).toNat
  if r.closed then r.low * down ≤ up && up ≤ r.high * down
  else r.low * down < up && up < r.high * down

/-- The nearest multiple of `10 ^ e` that rounds to the number. -/
def onGrid? (r : RoundingInterval) (e : Int) : Option Decimal :=
  let scaled := r.value * Nat.pow 10 (-e).toNat
  let unit := r.den * Nat.pow 10 e.toNat
  let below := scaled / unit
  let nearest := roundHalfEven scaled unit
  let other := if nearest = below then below + 1 else below
  if 0 < nearest && r.contains nearest e then some ⟨nearest, e⟩
  else if 0 < other && r.contains other e then some ⟨other, e⟩
  else none

end RoundingInterval

/-- The fewest digits that read back as the number, the nearest of those. Seventeen always do; the
search begins one place above the first digit, where the next power of ten lies. -/
def Finite64.shortest (x : Finite64) : Decimal :=
  let r := x.interval
  let place := leadingPlace r.value r.den
  ((List.range 18).findSome? fun (n : Nat) => r.onGrid? (place + 1 - n)).getD ⟨x.units, -1074⟩

/-- Where a number is written positionally and how its exponent looks elsewhere. -/
structure NumberLayout where
  /-- The least place of the point, counted from the first digit, of positional notation. -/
  leastPoint : Option Int
  /-- The greatest such place. -/
  greatestPoint : Option Int
  /-- Whether a positive exponent has a sign. -/
  plusSign : Bool
  /-- The least number of digits of an exponent. -/
  exponentWidth : Nat
  deriving DecidableEq, Repr

namespace NumberLayout

/-- Fills a decimal text with zeros on the left. -/
def padded (width n : Nat) : String :=
  let text := Nat.repr n
  String.ofList (List.replicate (width - text.length) '0') ++ text

/-- Digits with a point before the digit number `point`, and at least one digit on both sides. -/
def positional (digits : List Char) (point : Int) : String :=
  let zeros (n : Nat) := List.replicate n '0'
  if point ≤ 0 then String.ofList ("0.".toList ++ zeros (-point).toNat ++ digits)
  else
    let n := point.toNat
    if digits.length ≤ n then String.ofList (digits ++ zeros (n - digits.length) ++ ".0".toList)
    else String.ofList (digits.take n ++ '.' :: digits.drop n)

/-- One digit before the point, an exponent after it. -/
def scientific (layout : NumberLayout) (digits : List Char) (exponent : Int) : String :=
  let sign := if exponent < 0 then "-" else if layout.plusSign then "+" else ""
  let mantissa := match digits with
    | d :: rest@(_ :: _) => d :: '.' :: rest
    | _ => digits
  String.ofList mantissa ++ "e" ++ sign ++ padded layout.exponentWidth exponent.natAbs

/-- The text of a positive decimal number. -/
def decimal (layout : NumberLayout) (d : Decimal) : String :=
  let digits := Nat.toDigits 10 d.digits
  let point := d.exponent + digits.length
  if layout.leastPoint.all (· ≤ point) && layout.greatestPoint.all (point ≤ ·) then
    positional digits point
  else layout.scientific digits (point - 1)

/-- The text of a number, its magnitude's digits chosen by `choose`. -/
def text (layout : NumberLayout) (choose : Finite64 → Decimal) : Binary64 → String
  | .finite x =>
    (if x.negative then "-" else "") ++
      if x.significand = 0 then "0.0" else layout.decimal (choose x)
  | .infinity negative => if negative then "-inf" else "inf"
  | .undefined => "NaN"

end NumberLayout

end NodeScrape
