/-!
# Binary64 numbers

A finite number is a sign, a significand and a shift, worth `significand * 2 ^ shift` units of
`2 ^ -1074`. Every operation is the exact rational result rounded to the nearest number, a tie
going to the even significand, so nothing here depends on the machine's floating point.
-/

namespace NodeScrape

/-- The number one in units of `2 ^ -1074`. -/
def unitsInOne : Nat := Nat.pow 2 1074

/-- A finite binary64 number in its only canonical form. -/
structure Finite64 where
  /-- The sign, kept for zero as well. -/
  negative : Bool
  /-- The significand, with its leading bit unless the number is subnormal. -/
  significand : Nat
  /-- How far the significand stands above the unit `2 ^ -1074`. -/
  shift : Nat
  significand_lt : significand < Nat.pow 2 53
  normal : Nat.pow 2 52 ≤ significand ∨ shift = 0
  shift_le : shift ≤ 2045
  deriving DecidableEq

/-- A binary64 number; all undefined results are one value. -/
inductive Binary64 where
  /-- A number with a value. -/
  | finite (value : Finite64)
  /-- An overflow, with its sign. -/
  | infinity (negative : Bool)
  /-- An undefined result. -/
  | undefined
  deriving DecidableEq

/-- The whole number nearest to `a / d`, the even one of two. -/
def roundHalfEven (a d : Nat) : Nat :=
  let q := a / d
  let r := a % d
  if 2 * r < d then q else if d < 2 * r then q + 1 else if q % 2 = 0 then q else q + 1

theorem roundHalfEven_le (a d : Nat) : roundHalfEven a d ≤ a / d + 1 := by
  unfold roundHalfEven
  dsimp only
  split
  · omega
  · split
    · omega
    · split <;> omega

/-- What a significand keeps lies within a width of 53 bits. -/
theorem div_two_pow_lt (q : Nat) : q / Nat.pow 2 (q.log2 - 52) < Nat.pow 2 53 :=
  Nat.div_lt_of_lt_mul (Nat.lt_of_lt_of_le Nat.lt_log2_self (Nat.le_trans
    (Nat.pow_le_pow_right (by decide) (by omega : q.log2 + 1 ≤ q.log2 - 52 + 53))
    (Nat.le_of_eq (Nat.pow_add 2 _ _))))

/-- A number of at least `2 ^ 52` units keeps its leading bit. -/
theorem le_div_two_pow {q : Nat} (h : q.log2 - 52 ≠ 0) :
    Nat.pow 2 52 ≤ q / Nat.pow 2 (q.log2 - 52) := by
  have hq : q ≠ 0 := by
    rintro rfl
    simp at h
  exact (Nat.le_div_iff_mul_le (Nat.two_pow_pos _)).2 (Nat.le_trans
    (Nat.le_of_eq (Nat.pow_add 2 _ _).symm) (Nat.le_trans
      (Nat.pow_le_pow_right (by decide) (by omega : 52 + (q.log2 - 52) ≤ q.log2))
      (Nat.log2_self_le hq)))

theorem le_roundHalfEven (a d : Nat) : a / d ≤ roundHalfEven a d := by
  unfold roundHalfEven
  dsimp only
  split
  · omega
  · split
    · omega
    · split <;> omega

namespace Finite64

/-- Zero, positive unless told otherwise. -/
def zero (negative : Bool) : Finite64 :=
  ⟨negative, 0, 0, by decide, .inr rfl, by decide⟩

/-- The magnitude in units of `2 ^ -1074`. -/
def units (x : Finite64) : Nat :=
  x.significand * Nat.pow 2 x.shift

/-- The value in units of `2 ^ -1074`. -/
def scaled (x : Finite64) : Int :=
  if x.negative then -x.units else x.units

/-- The 64 bits of the interchange format. -/
def bits (x : Finite64) : Nat :=
  (if x.negative then Nat.pow 2 63 else 0) +
    if x.significand < Nat.pow 2 52 then x.significand
    else (x.shift + 1) * Nat.pow 2 52 + (x.significand - Nat.pow 2 52)

end Finite64

namespace Binary64

/-- Rounds `units / d` units of `2 ^ -1074`: the shift leaves 53 bits of the whole part, and a carry
out of the significand moves it up by one. -/
def ofUnitRatio (negative : Bool) (units d : Nat) : Binary64 :=
  let shift := (units / d).log2 - 52
  let significand := roundHalfEven units (d * Nat.pow 2 shift)
  if h : significand < Nat.pow 2 53 then
    if hs : shift ≤ 2045 then
      .finite ⟨negative, significand, shift, h, by
        by_cases hz : shift = 0
        · exact .inr hz
        · refine .inl (Nat.le_trans (le_div_two_pow hz) ?_)
          rw [Nat.div_div_eq_div_mul]
          exact le_roundHalfEven _ _, hs⟩
    else .infinity negative
  else if hs : shift + 1 ≤ 2045 then
    .finite ⟨negative, Nat.pow 2 52, shift + 1, by decide, .inl (Nat.le_refl _), hs⟩
  else .infinity negative

/-- The number nearest to `num / den`, signed as told. -/
def ofRatio (negative : Bool) (num den : Nat) : Binary64 :=
  ofUnitRatio negative (num * unitsInOne) den

/-- The number nearest to a natural number. -/
def ofNat (n : Nat) : Binary64 :=
  ofRatio false n 1

/-- Positive zero. -/
def zero : Binary64 := .finite (Finite64.zero false)

/-- Reverses the sign. -/
def neg : Binary64 → Binary64
  | .finite x => .finite { x with negative := !x.negative }
  | .infinity negative => .infinity !negative
  | .undefined => .undefined

/-- Adds two numbers; an exact zero is negative only if both terms are. -/
def add : Binary64 → Binary64 → Binary64
  | .finite x, .finite y =>
    let sum := x.scaled + y.scaled
    if sum = 0 then .finite (Finite64.zero (x.negative && y.negative))
    else ofUnitRatio (sum < 0) sum.natAbs 1
  | .undefined, _ => .undefined
  | _, .undefined => .undefined
  | .infinity a, .infinity b => if a = b then .infinity a else .undefined
  | .infinity a, .finite _ => .infinity a
  | .finite _, .infinity b => .infinity b

/-- Multiplies two numbers. -/
def mul : Binary64 → Binary64 → Binary64
  | .finite x, .finite y => ofUnitRatio (x.negative != y.negative) (x.units * y.units) (unitsInOne)
  | .undefined, _ => .undefined
  | _, .undefined => .undefined
  | .infinity a, .infinity b => .infinity (a != b)
  | .infinity a, .finite y => if y.units = 0 then .undefined else .infinity (a != y.negative)
  | .finite x, .infinity b => if x.units = 0 then .undefined else .infinity (x.negative != b)

/-- Divides two numbers. -/
def div : Binary64 → Binary64 → Binary64
  | .finite x, .finite y =>
    let negative := x.negative != y.negative
    if y.units = 0 then if x.units = 0 then .undefined else .infinity negative
    else ofUnitRatio negative (x.units * unitsInOne) y.units
  | .undefined, _ => .undefined
  | _, .undefined => .undefined
  | .infinity _, .infinity _ => .undefined
  | .infinity a, .finite y => .infinity (a != y.negative)
  | .finite x, .infinity b => .finite (Finite64.zero (x.negative != b))

/-- The least whole number that is not below the given one; a magnitude below one whose ceiling is
zero keeps its sign. -/
def ceil : Binary64 → Binary64
  | .finite x =>
    if x.negative then ofRatio true (x.units / unitsInOne) 1
    else ofRatio false ((x.units + (unitsInOne - 1)) / unitsInOne) 1
  | x => x

/-- Comparison by value; an undefined number compares with nothing. -/
def le : Binary64 → Binary64 → Bool
  | .finite x, .finite y => x.scaled ≤ y.scaled
  | .undefined, _ => false
  | _, .undefined => false
  | .infinity a, .infinity b => a || !b
  | .infinity a, .finite _ => a
  | .finite _, .infinity b => !b

/-- Whether the number has a value. -/
def isFinite : Binary64 → Bool
  | .finite _ => true
  | _ => false

/-- The 64 bits of the interchange format; an undefined number is the quiet one. -/
def bits : Binary64 → Nat
  | .finite x => x.bits
  | .infinity negative => (if negative then Nat.pow 2 63 else 0) + 2047 * Nat.pow 2 52
  | .undefined => 2047 * Nat.pow 2 52 + Nat.pow 2 51

/-- The number nearest to `digits * 10 ^ exponent`. Exponents that are out of reach of every number
are settled before any power is formed. -/
def ofDecimal (negative : Bool) (digits : Nat) (exponent : Int) : Binary64 :=
  if digits = 0 then .finite (Finite64.zero negative)
  else
    let magnitude := exponent + (digits.log2 * 3 / 10 : Nat)
    if 400 < magnitude then .infinity negative
    else if magnitude + (digits.log2 / 16 : Nat) + 2 < -400 then .finite (Finite64.zero negative)
    else match exponent with
      | .ofNat e => ofRatio negative (digits * Nat.pow 10 e) 1
      | .negSucc e => ofRatio negative digits (Nat.pow 10 (e + 1))

end Binary64

end NodeScrape
