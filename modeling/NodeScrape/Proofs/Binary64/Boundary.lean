import NodeScrape.Binary64.Boundary
import NodeScrape.Proofs.Binary64.Rounding

/-!
# Digits between the boundaries

The digits that are taken from the 64-bit boundaries of a number spell a decimal number strictly
between its exact boundaries. The products with a tabulated power of ten are less than one unit off,
which is what the ends are moved inwards by; and the digits are taken until the rest fits.
-/

namespace NodeScrape

/-! ## Products with a tabulated power of ten -/

namespace Extended

/-- The value of a number with a 64-bit significand. -/
def toRat (x : Extended) : ℚ := x.significand * 2 ^ x.exponent

variable {s : Nat} {e k : ℤ}

/-- Moving the leading bit to its place changes no value. -/
theorem toRat_normalize (s : Nat) (e : ℤ) : (normalize s e).toRat = s * 2 ^ e := by
  have hsplit : (2 : ℚ) ^ (63 - s.log2) * 2 ^ (e - (63 - s.log2 : Nat)) = 2 ^ e := by
    rw [← zpow_natCast, ← zpow_add₀ (by norm_num)]
    congr 1
    omega
  rw [normalize, toRat, Nat.cast_mul, Nat.pow_eq, Nat.cast_pow, Nat.cast_ofNat, mul_assoc, hsplit]

theorem normalize_lt (hs : s.log2 ≤ 63) (e : ℤ) : (normalize s e).significand < Nat.pow 2 64 := by
  have hlt : s < 2 ^ (s.log2 + 1) := Nat.lt_log2_self
  have hmul : s * 2 ^ (63 - s.log2) < 2 ^ (s.log2 + 1) * 2 ^ (63 - s.log2) :=
    Nat.mul_lt_mul_of_pos_right hlt (Nat.two_pow_pos _)
  rw [← Nat.pow_add] at hmul
  have hexponent : s.log2 + 1 + (63 - s.log2) = 64 := by omega
  rwa [hexponent] at hmul

/-- A value is at most half a unit away from a number with a 64-bit significand. -/
structure Near (x : Extended) (q : ℚ) : Prop where
  leading : Nat.pow 2 63 ≤ x.significand
  below : 2 * q ≤ 2 * x.toRat + 2 ^ x.exponent
  above : 2 * x.toRat ≤ 2 * q + 2 ^ x.exponent

/-- A ratio is rounded at the place `down - up` by at most half of that place. -/
theorem roundHalfEven_place {num den : Nat} (hden : 0 < den) {up down r : Nat}
    (hr : roundHalfEven (num * Nat.pow 2 up) (den * Nat.pow 2 down) = r) :
    2 * (num / den : ℚ) ≤ 2 * (r * 2 ^ ((down : ℤ) - up)) + 2 ^ ((down : ℤ) - up) ∧
      2 * (r * 2 ^ ((down : ℤ) - up)) ≤ 2 * (num / den : ℚ) + 2 ^ ((down : ℤ) - up) := by
  have hpositive : 0 < den * Nat.pow 2 down := Nat.mul_pos hden (Nat.two_pow_pos _)
  obtain ⟨habove, hbelow⟩ := roundHalfEven_near (a := num * Nat.pow 2 up) hpositive
  rw [hr] at habove hbelow
  have hscale : (0 : ℚ) < den * 2 ^ (up : ℤ) := by
    have hcast : (0 : ℚ) < den := by exact_mod_cast hden
    positivity
  have hnumerator : ((num * Nat.pow 2 up : Nat) : ℚ) = num / den * (den * 2 ^ (up : ℤ)) := by
    have hcast : (den : ℚ) ≠ 0 := by exact_mod_cast hden.ne'
    rw [Nat.cast_mul, Finite64.cast_two_pow]
    field_simp
  have hdenominator : ((den * Nat.pow 2 down : Nat) : ℚ) =
      2 ^ ((down : ℤ) - up) * (den * 2 ^ (up : ℤ)) := by
    have hpow : (2 : ℚ) ^ (down : ℤ) = 2 ^ ((down : ℤ) - up) * 2 ^ (up : ℤ) := by
      rw [← zpow_add₀ (by norm_num)]
      congr 1
      omega
    rw [Nat.cast_mul, Finite64.cast_two_pow, hpow]
    ring
  constructor
  · have hcast : (2 * (num * Nat.pow 2 up : Nat) : ℚ) ≤
        2 * (r * (den * Nat.pow 2 down : Nat)) + (den * Nat.pow 2 down : Nat) := by
      exact_mod_cast hbelow
    rw [hnumerator, hdenominator] at hcast
    refine le_of_mul_le_mul_right ?_ hscale
    linarith
  · have hcast : (2 * (r * (den * Nat.pow 2 down : Nat)) : ℚ) ≤
        2 * (num * Nat.pow 2 up : Nat) + (den * Nat.pow 2 down : Nat) := by
      exact_mod_cast habove
    rw [hnumerator, hdenominator] at hcast
    refine le_of_mul_le_mul_right ?_ hscale
    linarith

/-- A ratio that has been moved up far enough keeps its leading bit when it is rounded. -/
theorem leading_of_rounded {num den up down r : Nat} (hnum : 0 < num) (hden : 0 < den)
    (hup : up = 64 + den.log2) (hdown : down = (num * Nat.pow 2 up / den).log2 - 63)
    (hr : roundHalfEven (num * Nat.pow 2 up) (den * Nat.pow 2 down) = r) : Nat.pow 2 63 ≤ r := by
  have hquotient : 2 ^ 63 ≤ num * Nat.pow 2 up / den := by
    refine (Nat.le_div_iff_mul_le hden).mpr ?_
    calc 2 ^ 63 * den ≤ 2 ^ 63 * 2 ^ (den.log2 + 1) := Nat.mul_le_mul_left _ Nat.lt_log2_self.le
      _ = 2 ^ up := by rw [← Nat.pow_add, hup]; congr 1; omega
      _ ≤ num * 2 ^ up := Nat.le_mul_of_pos_left _ hnum
  have hne : num * Nat.pow 2 up / den ≠ 0 := by omega
  have hlog : 63 ≤ (num * Nat.pow 2 up / den).log2 := (Nat.le_log2 hne).mpr hquotient
  refine Nat.le_trans ?_ (hr ▸ le_roundHalfEven _ _)
  rw [← Nat.div_div_eq_div_mul]
  refine (Nat.le_div_iff_mul_le (Nat.two_pow_pos _)).mpr ?_
  have hexponent : 63 + down = (num * Nat.pow 2 up / den).log2 := by omega
  rw [Nat.pow_eq, Nat.pow_eq, ← Nat.pow_add, hexponent]
  exact Nat.log2_self_le hne

/-- The number with a 64-bit significand that is taken for a ratio is near it. -/
theorem ofRatio_near {num den : Nat} (hnum : 0 < num) (hden : 0 < den) :
    (ofRatio num den).Near (num / den) := by
  obtain ⟨up, hup⟩ : ∃ up, up = 64 + den.log2 := ⟨_, rfl⟩
  obtain ⟨down, hdown⟩ : ∃ down, down = (num * Nat.pow 2 up / den).log2 - 63 := ⟨_, rfl⟩
  obtain ⟨r, hr⟩ : ∃ r, roundHalfEven (num * Nat.pow 2 up) (den * Nat.pow 2 down) = r := ⟨_, rfl⟩
  have hleading := leading_of_rounded hnum hden hup hdown hr
  obtain ⟨hbelow, habove⟩ := roundHalfEven_place hden hr
  have hof : ofRatio num den =
      if r = Nat.pow 2 64 then ⟨Nat.pow 2 63, down + 1 - up⟩ else ⟨r, down - up⟩ := by
    rw [← hr, hdown, hup]
    rfl
  by_cases htop : r = Nat.pow 2 64
  · -- The carry moves the leading bit up, and the value stays the same.
    have hdouble : (2 : ℚ) ^ ((down : ℤ) + 1 - up) = 2 * 2 ^ ((down : ℤ) - up) := by
      rw [add_sub_right_comm, zpow_add_one₀ (by norm_num), mul_comm]
    have hvalue : ((Nat.pow 2 63 : Nat) : ℚ) * 2 ^ ((down : ℤ) + 1 - up) =
        r * 2 ^ ((down : ℤ) - up) := by
      rw [hdouble, htop]
      push_cast [Nat.pow_eq]
      ring
    have hunit : (0 : ℚ) < 2 ^ ((down : ℤ) - up) := zpow_pos (by norm_num) _
    rw [hof, if_pos htop]
    refine ⟨Nat.le_refl _, ?_, ?_⟩
    · rw [toRat, hvalue, hdouble]
      linarith
    · rw [toRat, hvalue, hdouble]
      linarith
  · rw [hof, if_neg htop]
    exact ⟨hleading, hbelow, habove⟩

/-- A tabulated power of ten is near the exact one. -/
theorem powerOfTen_near (k : ℤ) : (powerOfTen k).Near (10 ^ k) := by
  have hpositive : 0 < Nat.pow 10 k.toNat := Nat.pow_pos (by decide)
  have hnegative : 0 < Nat.pow 10 (-k).toNat := Nat.pow_pos (by decide)
  have hratio : ((Nat.pow 10 k.toNat : Nat) / (Nat.pow 10 (-k).toNat : Nat) : ℚ) = 10 ^ k := by
    simp only [Nat.pow_eq, Nat.cast_pow, Nat.cast_ofNat]
    rw [← zpow_natCast, ← zpow_natCast, ← zpow_sub₀ (by norm_num)]
    congr 1
    omega
  exact hratio ▸ ofRatio_near hpositive hnegative

/-- A product is rounded to the nearest unit of its upper half. -/
theorem mul_near (x y : Extended) :
    2 * ((x.mul y).significand * Nat.pow 2 64) ≤
        2 * (x.significand * y.significand) + Nat.pow 2 64 ∧
      2 * (x.significand * y.significand) <
        2 * ((x.mul y).significand * Nat.pow 2 64) + Nat.pow 2 64 := by
  have hdiv := Nat.div_add_mod' (x.significand * y.significand + Nat.pow 2 63) (Nat.pow 2 64)
  have hmod := Nat.mod_lt (x.significand * y.significand + Nat.pow 2 63) (Nat.two_pow_pos 64)
  have hsignificand : (x.mul y).significand =
      (x.significand * y.significand + Nat.pow 2 63) / Nat.pow 2 64 := rfl
  rw [hsignificand]
  simp only [Nat.pow_eq] at hdiv hmod ⊢
  omega

/-- The product of a number with a tabulated power of ten is less than one unit off. -/
theorem mul_powerOfTen_near {x : Extended} (hx : x.significand < Nat.pow 2 64) (k : ℤ) :
    (((x.mul (powerOfTen k)).significand : ℚ) - 1) * 2 ^ (x.mul (powerOfTen k)).exponent <
        x.toRat * 10 ^ k ∧
      x.toRat * 10 ^ k <
        (((x.mul (powerOfTen k)).significand : ℚ) + 1) * 2 ^ (x.mul (powerOfTen k)).exponent := by
  obtain ⟨-, hbelow, habove⟩ := powerOfTen_near k
  obtain ⟨hdown, hup⟩ := mul_near x (powerOfTen k)
  have hexponent : (2 : ℚ) ^ (x.mul (powerOfTen k)).exponent =
      2 ^ x.exponent * (2 ^ (powerOfTen k).exponent * 2 ^ 64) := by
    rw [mul, zpow_add₀ (by norm_num), zpow_add₀ (by norm_num)]
    norm_num
    ring
  rw [hexponent]
  rw [toRat] at hbelow habove ⊢
  obtain ⟨power, hpower⟩ : ∃ p : ℚ, p = (powerOfTen k).significand := ⟨_, rfl⟩
  obtain ⟨product, hproduct⟩ : ∃ w : ℚ, w = (x.mul (powerOfTen k)).significand := ⟨_, rfl⟩
  obtain ⟨unit, hunit⟩ : ∃ u : ℚ, u = 2 ^ (powerOfTen k).exponent := ⟨_, rfl⟩
  have hunitPos : 0 < unit := hunit ▸ zpow_pos (by norm_num) _
  have hxPos : (0 : ℚ) ≤ x.significand := by positivity
  have hdown' : 2 * (product * 2 ^ 64) ≤ 2 * (x.significand * power) + 2 ^ 64 := by
    rw [hproduct, hpower]
    exact_mod_cast hdown
  have hup' : 2 * (x.significand * power) < 2 * (product * 2 ^ 64) + 2 ^ 64 := by
    rw [hproduct, hpower]
    exact_mod_cast hup
  have hx' : (x.significand : ℚ) < 2 ^ 64 := by exact_mod_cast hx
  rw [← hpower, ← hunit] at hbelow habove
  rw [← hproduct, ← hunit]
  have hdownUnit := mul_le_mul_of_nonneg_right hdown' hunitPos.le
  have hupUnit := mul_lt_mul_of_pos_right hup' hunitPos
  have hbelowX := mul_le_mul_of_nonneg_left hbelow hxPos
  have haboveX := mul_le_mul_of_nonneg_left habove hxPos
  have hxUnit := mul_lt_mul_of_pos_right hx' hunitPos
  have htwoPos : (0 : ℚ) < 2 ^ x.exponent := zpow_pos (by norm_num) _
  constructor
  · have hlt : (product - 1) * (unit * 2 ^ 64) < x.significand * 10 ^ k := by linarith
    have hmul := mul_lt_mul_of_pos_left hlt htwoPos
    linarith
  · have hlt : x.significand * 10 ^ k < (product + 1) * (unit * 2 ^ 64) := by linarith
    have hmul := mul_lt_mul_of_pos_left hlt htwoPos
    linarith

end Extended

/-! ## Taking digits -/

/-- The value of a decimal number. -/
def Decimal.toRat (d : Decimal) : ℚ := d.digits * 10 ^ d.exponent

namespace Boundary

/-- A decimal number is at most `width` below `high`, both in parts of which `one` make a whole. -/
def Reaches (one high width : Nat) (d : Decimal) : Prop :=
  (high : ℚ) - width ≤ d.toRat * one ∧ d.toRat * one ≤ high

variable {one gap high width unit digits rest : Nat}

/-- Digits before the point with a small rest. -/
theorem reaches_whole {place : Nat} (htotal : digits * (Nat.pow 10 place * one) + rest = high)
    (hrest : rest ≤ width) : Reaches one high width ⟨digits, place⟩ := by
  have hvalue : (Decimal.toRat ⟨digits, place⟩ * one : ℚ) = high - rest := by
    rw [← htotal, Decimal.toRat, zpow_natCast]
    push_cast [Nat.pow_eq]
    ring
  have hcast : (rest : ℚ) ≤ width := by exact_mod_cast hrest
  have hnonneg : (0 : ℚ) ≤ rest := by positivity
  constructor
  · rw [hvalue]
    linarith
  · rw [hvalue]
    linarith

/-- Digits after the point with a small rest. -/
theorem reaches_fraction {place : Nat} (htotal : digits * one + rest = high * Nat.pow 10 place)
    (hrest : rest ≤ width * Nat.pow 10 place) :
    Reaches one high width ⟨digits, -(place : ℤ)⟩ := by
  have hpow : (0 : ℚ) < 10 ^ place := by positivity
  have hvalue : (Decimal.toRat ⟨digits, -(place : ℤ)⟩ * one : ℚ) * 10 ^ place =
      high * 10 ^ place - rest := by
    have hcast : (digits * one + rest : ℚ) = high * 10 ^ place := by
      rw [Nat.pow_eq] at htotal
      exact_mod_cast htotal
    rw [Decimal.toRat, zpow_neg, zpow_natCast, ← hcast]
    field_simp
    ring
  have hcast : (rest : ℚ) ≤ width * 10 ^ place := by
    rw [Nat.pow_eq] at hrest
    exact_mod_cast hrest
  have hnonneg : (0 : ℚ) ≤ rest := by positivity
  constructor
  · refine le_of_mul_le_mul_right ?_ hpow
    rw [hvalue]
    linarith
  · refine le_of_mul_le_mul_right ?_ hpow
    rw [hvalue]
    linarith

/-- Lowering the last digit moves its unit into the rest, which stays within the interval. -/
theorem lower_spec (hrest : rest ≤ width) (htotal : width < digits * unit + rest) (fuel : Nat) :
    ∃ rest' ≤ width,
      lower gap width unit fuel digits rest * unit + rest' = digits * unit + rest := by
  induction fuel generalizing digits rest with
  | zero => exact ⟨rest, hrest, rfl⟩
  | succ fuel ih =>
    unfold lower
    split
    next hcond =>
      have hdigits : 0 < digits := by
        rcases Nat.eq_zero_or_pos digits with rfl | hpos
        · omega
        · exact hpos
      have hmove : (digits - 1) * unit + (rest + unit) = digits * unit + rest := by
        obtain ⟨n, rfl⟩ : ∃ n, digits = n + 1 := ⟨digits - 1, by omega⟩
        rw [Nat.add_sub_cancel, Nat.add_mul, Nat.one_mul]
        omega
      rw [← hmove]
      exact ih (by omega) (by omega)
    next => exact ⟨rest, hrest, rfl⟩

/-- Digits after the point reach the interval: if no earlier rest fits, the last one does. -/
theorem reaches_fractionDigits (hone : 0 < one) (hwidth : width < high) (fuel : Nat)
    {place : Nat} (htotal : digits * one + rest = high * Nat.pow 10 place) (hrest : rest < one)
    (hfuel : one ≤ width * Nat.pow 10 (place + fuel)) :
    Reaches one high width
      (fraction one gap fuel digits place rest (width * Nat.pow 10 place)) := by
  induction fuel generalizing digits place rest with
  | zero => exact reaches_fraction htotal (Nat.le_trans hrest.le hfuel)
  | succ fuel ih =>
    have hsplit : rest * 10 / one * one + rest * 10 % one = rest * 10 := Nat.div_add_mod' _ _
    have hscale : width * Nat.pow 10 place * 10 = width * Nat.pow 10 (place + 1) := by
      rw [Nat.mul_assoc]
      rfl
    have hnext : (digits * 10 + rest * 10 / one) * one + rest * 10 % one =
        high * Nat.pow 10 (place + 1) := by
      calc (digits * 10 + rest * 10 / one) * one + rest * 10 % one =
            digits * one * 10 + (rest * 10 / one * one + rest * 10 % one) := by ring
        _ = (digits * one + rest) * 10 := by rw [hsplit]; ring
        _ = high * Nat.pow 10 (place + 1) := by rw [htotal, Nat.mul_assoc]; rfl
    have hless : rest * 10 % one < one := Nat.mod_lt _ hone
    unfold fraction
    dsimp only
    rw [hscale]
    split
    next hsmall =>
      have hpow : 0 < Nat.pow 10 (place + 1) := Nat.pow_pos (by decide)
      have hlarge : width * Nat.pow 10 (place + 1) < high * Nat.pow 10 (place + 1) :=
        Nat.mul_lt_mul_of_pos_right hwidth hpow
      obtain ⟨rest', hle, heq⟩ := lower_spec hsmall.le (hnext ▸ hlarge) 10
      exact reaches_fraction (heq.trans hnext) hle
    next =>
      have hfuel' : one ≤ width * Nat.pow 10 (place + 1 + fuel) := by
        rwa [Nat.add_right_comm]
      exact ih hnext hless hfuel'

/-- Digits before the point, and those after it, reach the interval. -/
theorem reaches_wholeDigits (hone : 0 < one) (hwidth : width < high) (count : Nat)
    (htotal : digits * (Nat.pow 10 count * one) + rest = high)
    (hrest : rest < Nat.pow 10 count * one)
    (hfuel : one ≤ width * Nat.pow 10 20) :
    Reaches one high width (whole one gap width count digits rest) := by
  induction count generalizing digits rest with
  | zero =>
    have hstart : digits * one + rest = high * Nat.pow 10 0 := by simpa using htotal
    have hbelow : rest < one := by simpa using hrest
    have hreach :
        Reaches one high width (fraction one gap 20 digits 0 rest (width * Nat.pow 10 0)) :=
      reaches_fractionDigits hone hwidth 20 hstart hbelow (by simpa using hfuel)
    have hscale : width * Nat.pow 10 0 = width := Nat.mul_one width
    rwa [hscale] at hreach
  | succ count ih =>
    have hunit : 0 < Nat.pow 10 count * one := Nat.mul_pos (Nat.pow_pos (by decide)) hone
    have hsplit := Nat.div_add_mod' rest (Nat.pow 10 count * one)
    have hless : rest % (Nat.pow 10 count * one) < Nat.pow 10 count * one := Nat.mod_lt _ hunit
    have hnext : (digits * 10 + rest / (Nat.pow 10 count * one)) * (Nat.pow 10 count * one) +
        rest % (Nat.pow 10 count * one) = high := by
      calc (digits * 10 + rest / (Nat.pow 10 count * one)) * (Nat.pow 10 count * one) +
            rest % (Nat.pow 10 count * one) =
          digits * (Nat.pow 10 count * one * 10) +
            (rest / (Nat.pow 10 count * one) * (Nat.pow 10 count * one) +
              rest % (Nat.pow 10 count * one)) := by ring
        _ = digits * (Nat.pow 10 count * 10 * one) + rest := by rw [hsplit]; ring
        _ = high := htotal
    unfold whole
    dsimp only
    split
    next hsmall =>
      obtain ⟨rest', hle, heq⟩ := lower_spec hsmall (hnext ▸ hwidth) 10
      exact reaches_whole (heq.trans hnext) hle
    next => exact ih hnext hless

/-- A small enough part of a whole leaves room for all digits. -/
theorem reaches_of_room (hone : 0 < one) (hsmall : one ≤ Nat.pow 2 66) (hpos : 0 < width)
    (hwidth : width < high) :
    Reaches one high width (whole one gap width (Nat.toDigits 10 (high / one)).length 0 high) := by
  have hfuel : one ≤ width * Nat.pow 10 20 := by
    calc one ≤ 1 * Nat.pow 10 20 := hsmall.trans (by decide)
      _ ≤ width * Nat.pow 10 20 := Nat.mul_le_mul_right _ hpos
  have hcount : high < Nat.pow 10 (Nat.toDigits 10 (high / one)).length * one := by
    refine (Nat.div_lt_iff_lt_mul hone).mp ?_
    exact (Nat.length_toDigits_le_iff (by decide) Nat.length_toDigits_pos).mp (Nat.le_refl _)
  exact reaches_wholeDigits hone hwidth _ (by omega) hcount hfuel

/-- What a decimal number is between, with the value of one part of a whole. -/
theorem Reaches.bounds {d : Decimal} {part : ℚ} (h : Reaches one high width d)
    (hpart : one * part = 1) (hpos : 0 < part) :
    ((high : ℚ) - width) * part ≤ d.toRat ∧ d.toRat ≤ high * part := by
  have hvalue : d.toRat = d.toRat * one * part := by rw [mul_assoc, hpart, mul_one]
  rw [hvalue]
  exact ⟨mul_le_mul_of_nonneg_right h.1 hpos.le, mul_le_mul_of_nonneg_right h.2 hpos.le⟩

/-- The exponents of the tabulated powers. -/
theorem powerOfTen_exponent : ∀ j : Nat, j < 88 →
    (Extended.powerOfTen (8 * (j : Int) - 348)).exponent =
      (8 * (j : Int) - 348) * 217706 / 65536 - 63 := by
  decide +kernel

/-- The power that is chosen leaves at most 66 binary places after the point, and none missing
before it. -/
theorem scaled_exponent {e : Int} (hlow : -1137 ≤ e) (hhigh : e ≤ 960) :
    -66 ≤ e + (Extended.powerOfTen (scaleFor e)).exponent + 64 ∧
      e + (Extended.powerOfTen (scaleFor e)).exponent + 64 ≤ 0 := by
  obtain ⟨j, hj, hscale⟩ : ∃ j : Nat, j < 88 ∧ scaleFor e = 8 * (j : Int) - 348 := by
    refine ⟨((-((-((-61 - e) * 30103)) / 100000) + 347) / 8 + 1).toNat, ?_, ?_⟩
    · omega
    · unfold scaleFor
      dsimp only
      omega
  rw [hscale, powerOfTen_exponent j hj]
  unfold scaleFor at hscale
  dsimp only at hscale
  omega

end Boundary

/-! ## The boundaries of a number -/

namespace Finite64

open Extended Boundary

/-- The upper boundary of a number. -/
def upperEnd (x : Finite64) : Extended :=
  normalize (2 * x.significand + 1) ((x.shift : Int) - 1074 - 1)

/-- The significand and the exponent of the lower boundary. -/
def lowerParts (x : Finite64) : Nat × Int :=
  if x.significand = Nat.pow 2 52 then (4 * x.significand - 1, (x.shift : Int) - 1074 - 2)
  else (2 * x.significand - 1, (x.shift : Int) - 1074 - 1)

/-- The lower boundary of a number, with the exponent of the upper one. -/
def lowerEnd (x : Finite64) : Extended :=
  ⟨x.lowerParts.1 * Nat.pow 2 (x.lowerParts.2 - x.upperEnd.exponent).toNat, x.upperEnd.exponent⟩

variable {x : Finite64}

theorem log2_double_succ (hpos : 0 < x.significand) :
    (2 * x.significand + 1).log2 = x.significand.log2 + 1 := by
  have hle : 2 ^ x.significand.log2 ≤ x.significand := Nat.log2_self_le hpos.ne'
  have hlt : x.significand < 2 ^ (x.significand.log2 + 1) := Nat.lt_log2_self
  refine (Nat.log2_eq_iff (by omega)).mpr ⟨?_, ?_⟩
  · rw [Nat.pow_succ]
    omega
  · rw [Nat.pow_succ]
    omega

theorem log2_significand_le (hpos : 0 < x.significand) : x.significand.log2 ≤ 52 := by
  have hlt : x.significand.log2 < 53 := (Nat.log2_lt hpos.ne').mpr x.significand_lt
  omega

theorem upperEnd_exponent (hpos : 0 < x.significand) :
    x.upperEnd.exponent = (x.shift : Int) - 1137 + x.significand.log2 := by
  have hlog := log2_double_succ hpos
  have hle := log2_significand_le hpos
  show (x.shift : Int) - 1074 - 1 - (63 - (2 * x.significand + 1).log2 : Nat) = _
  omega

theorem upperEnd_lt (hpos : 0 < x.significand) : x.upperEnd.significand < Nat.pow 2 64 := by
  have hlog := log2_double_succ hpos
  have hle := log2_significand_le hpos
  exact normalize_lt (by omega) _

/-- The upper boundary lies half a unit above the number. -/
theorem toRat_upperEnd (x : Finite64) :
    2 * x.upperEnd.toRat = 2 * (x.significand * x.ulp) + x.ulp := by
  rw [upperEnd, toRat_normalize, ulp, zpow_sub_one₀ (by norm_num)]
  push_cast
  ring

theorem lowerEnd_value (hpos : 0 < x.significand) :
    x.lowerEnd.toRat = x.lowerParts.1 * 2 ^ x.lowerParts.2 := by
  have hexponent := upperEnd_exponent hpos
  have hle := log2_significand_le hpos
  have hparts : (x.shift : Int) - 1076 ≤ x.lowerParts.2 := by
    unfold lowerParts
    split <;> omega
  have hsplit : (2 : ℚ) ^ (x.lowerParts.2 - x.upperEnd.exponent).toNat * 2 ^ x.upperEnd.exponent =
      2 ^ x.lowerParts.2 := by
    rw [← zpow_natCast, ← zpow_add₀ (by norm_num)]
    congr 1
    omega
  rw [toRat, lowerEnd, Nat.cast_mul, Nat.pow_eq, Nat.cast_pow, Nat.cast_ofNat, mul_assoc, hsplit]

/-- The lower boundary lies half a unit below the number, below the least significand of a binade a
quarter. -/
theorem toRat_lowerEnd (hpos : 0 < x.significand) :
    (x.significand ≠ Nat.pow 2 52 → 2 * x.lowerEnd.toRat + x.ulp = 2 * (x.significand * x.ulp)) ∧
      (x.significand = Nat.pow 2 52 →
        4 * x.lowerEnd.toRat + x.ulp = 4 * (x.significand * x.ulp)) := by
  rw [lowerEnd_value hpos]
  constructor
  · intro hleast
    have hcast : ((2 * x.significand - 1 : Nat) : ℚ) = 2 * x.significand - 1 := by
      rw [Nat.cast_sub (by omega)]
      push_cast
      ring
    rw [lowerParts, if_neg hleast, hcast, ulp, zpow_sub_one₀ (by norm_num)]
    ring
  · intro hleast
    have hcast : ((4 * x.significand - 1 : Nat) : ℚ) = 4 * x.significand - 1 := by
      rw [Nat.cast_sub (by omega)]
      push_cast
      ring
    have hquarter : (2 : ℚ) ^ ((x.shift : Int) - 1074 - 2) = 2 ^ ((x.shift : Int) - 1074) / 4 := by
      rw [zpow_sub₀ (by norm_num)]
      norm_num
    rw [lowerParts, if_pos hleast, hcast, ulp, hquarter]
    ring

/-- Three quarters of a unit lie between the boundaries. -/
theorem ulp_le_upperEnd_sub (hpos : 0 < x.significand) :
    3 * x.ulp ≤ 4 * (x.upperEnd.toRat - x.lowerEnd.toRat) := by
  have hupper := toRat_upperEnd x
  have hulp := ulp_pos x
  by_cases hleast : x.significand = Nat.pow 2 52
  · have hlower := (toRat_lowerEnd hpos).2 hleast
    linarith
  · have hlower := (toRat_lowerEnd hpos).1 hleast
    linarith

/-- The boundaries are far apart in units of the 64-bit significands. -/
theorem lowerEnd_add_le (hpos : 0 < x.significand) :
    x.lowerEnd.significand + 20 ≤ x.upperEnd.significand := by
  have hgap := ulp_le_upperEnd_sub hpos
  have hexponent := upperEnd_exponent hpos
  have hle := log2_significand_le hpos
  have hunit : (0 : ℚ) < 2 ^ x.upperEnd.exponent := zpow_pos (by norm_num) _
  have hulp : 2 ^ (11 : Int) * 2 ^ x.upperEnd.exponent ≤ x.ulp := by
    rw [ulp, ← zpow_add₀ (by norm_num)]
    exact zpow_le_zpow_right₀ (by norm_num) (by omega)
  have hlower : x.lowerEnd.toRat = x.lowerEnd.significand * 2 ^ x.upperEnd.exponent := rfl
  have hupper : x.upperEnd.toRat = x.upperEnd.significand * 2 ^ x.upperEnd.exponent := rfl
  have hfar : ((x.lowerEnd.significand : ℚ) + 20) * 2 ^ x.upperEnd.exponent ≤
      x.upperEnd.significand * 2 ^ x.upperEnd.exponent := by
    rw [hlower, hupper] at hgap
    norm_num at hulp
    linarith
  have hcast := le_of_mul_le_mul_right hfar hunit
  exact_mod_cast hcast

/-- The scaled boundaries leave room for digits once both are moved inwards by one unit. -/
theorem scaledEnds_lt (hpos : 0 < x.significand) (k : Int) :
    (x.lowerEnd.mul (powerOfTen k)).significand + 1 <
      (x.upperEnd.mul (powerOfTen k)).significand - 1 := by
  obtain ⟨hleading, hbelow, habove⟩ := powerOfTen_near k
  have hfar := lowerEnd_add_le hpos
  have hupperLt := upperEnd_lt hpos
  have hlower := (mul_powerOfTen_near (x := x.lowerEnd) (by omega) k).1
  have hupper := (mul_powerOfTen_near hupperLt k).2
  have hexponents : (x.lowerEnd.mul (powerOfTen k)).exponent =
      (x.upperEnd.mul (powerOfTen k)).exponent := rfl
  have hpow : (2 : ℚ) ^ (x.upperEnd.mul (powerOfTen k)).exponent =
      2 ^ x.upperEnd.exponent * 2 ^ (powerOfTen k).exponent * 2 ^ 64 := by
    rw [mul, zpow_add₀ (by norm_num), zpow_add₀ (by norm_num)]
    norm_num
  have hlowerValue : x.lowerEnd.toRat = x.lowerEnd.significand * 2 ^ x.upperEnd.exponent := rfl
  rw [hexponents, hpow, hlowerValue] at hlower
  rw [hpow, toRat] at hupper
  rw [toRat] at habove
  obtain ⟨unit, hunit⟩ : ∃ u : ℚ, u = 2 ^ (powerOfTen k).exponent := ⟨_, rfl⟩
  have hunitPos : 0 < unit := hunit ▸ zpow_pos (by norm_num) _
  have htwoPos : (0 : ℚ) < 2 ^ x.upperEnd.exponent := zpow_pos (by norm_num) _
  rw [← hunit] at habove hlower hupper
  -- Twenty units of the significands are ten units of the products.
  have hten : (2 ^ 64 - 1) * unit ≤ 2 * 10 ^ k := by
    have hcast : (2 : ℚ) ^ 63 ≤ (powerOfTen k).significand := by exact_mod_cast hleading
    have hmul := mul_le_mul_of_nonneg_right hcast hunitPos.le
    linarith
  have hgap : (20 : ℚ) * 10 ^ k ≤
      ((x.upperEnd.significand : ℚ) - x.lowerEnd.significand) * 10 ^ k := by
    have hcast : (x.lowerEnd.significand : ℚ) + 20 ≤ x.upperEnd.significand := by
      exact_mod_cast hfar
    exact mul_le_mul_of_nonneg_right (by linarith) (by positivity)
  obtain ⟨w, hw⟩ : ∃ w : ℚ, w = (x.lowerEnd.mul (powerOfTen k)).significand := ⟨_, rfl⟩
  obtain ⟨v, hv⟩ : ∃ v : ℚ, v = (x.upperEnd.mul (powerOfTen k)).significand := ⟨_, rfl⟩
  rw [← hw] at hlower
  rw [← hv] at hupper
  have hlower' : (w - 1) * (unit * 2 ^ 64) < x.lowerEnd.significand * 10 ^ k := by
    refine lt_of_mul_lt_mul_left ?_ htwoPos.le
    linarith
  have hupper' : x.upperEnd.significand * 10 ^ k < (v + 1) * (unit * 2 ^ 64) := by
    refine lt_of_mul_lt_mul_left ?_ htwoPos.le
    linarith
  have hroom : w + 7 < v := by
    refine lt_of_mul_lt_mul_right ?_ hunitPos.le
    linarith
  have hcast : (x.lowerEnd.mul (powerOfTen k)).significand + 7 <
      (x.upperEnd.mul (powerOfTen k)).significand := by
    rw [hw, hv] at hroom
    exact_mod_cast hroom
  omega

/-- The digits found between the boundaries of a number, from its boundaries. -/
theorem boundaryDigits_eq (x : Finite64) :
    ∃ gap, x.boundaryDigits =
      let power := powerOfTen (scaleFor x.upperEnd.exponent)
      let high := (x.upperEnd.mul power).significand - 1
      let low := (x.lowerEnd.mul power).significand + 1
      let one := Nat.pow 2
        (-((normalize x.significand ((x.shift : Int) - 1074)).mul power).exponent).toNat
      let d := whole one gap (high - low) (Nat.toDigits 10 (high / one)).length 0 high
      ⟨d.digits, d.exponent - scaleFor x.upperEnd.exponent⟩ := by
  unfold boundaryDigits
  by_cases hleast : x.significand = Nat.pow 2 52
  · have hparts : x.lowerParts = _ := if_pos hleast
    simp only [if_pos hleast, lowerEnd, hparts]
    exact ⟨_, rfl⟩
  · have hparts : x.lowerParts = _ := if_neg hleast
    simp only [if_neg hleast, lowerEnd, hparts]
    exact ⟨_, rfl⟩

/-- The scaled boundaries have between none and 66 places of a fraction. -/
theorem scaledEnd_exponent (hpos : 0 < x.significand) :
    -66 ≤ (x.upperEnd.mul (powerOfTen (scaleFor x.upperEnd.exponent))).exponent ∧
      (x.upperEnd.mul (powerOfTen (scaleFor x.upperEnd.exponent))).exponent ≤ 0 := by
  have hexponent := upperEnd_exponent hpos
  have hlog := log2_significand_le hpos
  have hshift := x.shift_le
  exact scaled_exponent (e := x.upperEnd.exponent) (by omega) (by omega)

/-- A number has the place of its upper boundary. -/
theorem normalize_exponent (hpos : 0 < x.significand) :
    (normalize x.significand ((x.shift : Int) - 1074)).exponent = x.upperEnd.exponent := by
  have hexponent := upperEnd_exponent hpos
  have hlog := log2_significand_le hpos
  show (x.shift : Int) - 1074 - (63 - x.significand.log2 : Nat) = _
  omega

/-- The scaled decimal number lies between the scaled boundaries moved inwards by one unit. -/
theorem boundaryDigits_scaled (hpos : 0 < x.significand) :
    let k := scaleFor x.upperEnd.exponent
    let upper := x.upperEnd.mul (powerOfTen k)
    let lower := x.lowerEnd.mul (powerOfTen k)
    ((lower.significand : ℚ) + 1) * 2 ^ upper.exponent ≤ x.boundaryDigits.toRat * 10 ^ k ∧
      x.boundaryDigits.toRat * 10 ^ k ≤ ((upper.significand : ℚ) - 1) * 2 ^ upper.exponent := by
  intro k upper lower
  obtain ⟨gap, heq⟩ := boundaryDigits_eq x
  obtain ⟨one, hone⟩ : ∃ n, n = Nat.pow 2 (-upper.exponent).toNat := ⟨_, rfl⟩
  obtain ⟨high, hhigh⟩ : ∃ n, n = upper.significand - 1 := ⟨_, rfl⟩
  obtain ⟨width, hwidth⟩ : ∃ n, n = high - (lower.significand + 1) := ⟨_, rfl⟩
  obtain ⟨d, hd⟩ :
      ∃ d, d = whole one gap width (Nat.toDigits 10 (high / one)).length 0 high := ⟨_, rfl⟩
  obtain ⟨hleast, hgreatest⟩ : -66 ≤ upper.exponent ∧ upper.exponent ≤ 0 := scaledEnd_exponent hpos
  have hroom : lower.significand + 1 < upper.significand - 1 := scaledEnds_lt hpos k
  have hsame : ((normalize x.significand ((x.shift : Int) - 1074)).mul (powerOfTen k)).exponent =
      upper.exponent := by
    show (normalize x.significand ((x.shift : Int) - 1074)).exponent + _ + 64 = _
    rw [normalize_exponent hpos]
    rfl
  have hsmall : one ≤ Nat.pow 2 66 := hone ▸ Nat.pow_le_pow_right (by decide) (by omega)
  have honePos : 0 < one := hone ▸ Nat.two_pow_pos _
  have hreach : Reaches one high width d :=
    hd ▸ reaches_of_room honePos hsmall (by omega) (by omega)
  have hdigits : x.boundaryDigits = ⟨d.digits, d.exponent - k⟩ := by
    rw [heq, hd, hwidth, hhigh, hone, ← hsame]
  have hvalue : x.boundaryDigits.toRat * 10 ^ k = d.toRat := by
    rw [hdigits, Decimal.toRat, Decimal.toRat, mul_assoc, ← zpow_add₀ (by norm_num),
      sub_add_cancel]
  have hunit : (one : ℚ) * 2 ^ upper.exponent = 1 := by
    rw [hone, cast_two_pow, ← zpow_add₀ (by norm_num)]
    have hzero : ((-upper.exponent).toNat : Int) + upper.exponent = 0 := by omega
    rw [hzero, zpow_zero]
  have hhighCast : (high : ℚ) = upper.significand - 1 := by
    rw [hhigh, Nat.cast_sub (by omega), Nat.cast_one]
  have hlowCast : (high : ℚ) - width = lower.significand + 1 := by
    rw [hwidth, Nat.cast_sub (by omega)]
    push_cast
    ring
  rw [hvalue, ← hhighCast, ← hlowCast]
  exact hreach.bounds hunit (zpow_pos (by norm_num) _)

/-- The decimal number that is found lies strictly between the boundaries. -/
theorem boundaryDigits_between (hpos : 0 < x.significand) :
    x.lowerEnd.toRat < x.boundaryDigits.toRat ∧ x.boundaryDigits.toRat < x.upperEnd.toRat := by
  obtain ⟨hge, hle⟩ := boundaryDigits_scaled hpos
  obtain ⟨k, hk⟩ : ∃ k, k = scaleFor x.upperEnd.exponent := ⟨_, rfl⟩
  rw [← hk] at hge hle
  have hfar := lowerEnd_add_le hpos
  have hupperLt := upperEnd_lt hpos
  have hlower : x.lowerEnd.toRat * 10 ^ k < _ :=
    (mul_powerOfTen_near (x := x.lowerEnd) (by omega) k).2
  have hupper : _ < x.upperEnd.toRat * 10 ^ k := (mul_powerOfTen_near hupperLt k).1
  have hten : (0 : ℚ) < 10 ^ k := zpow_pos (by norm_num) _
  constructor
  · exact lt_of_mul_lt_mul_right (hlower.trans_le hge) hten.le
  · exact lt_of_mul_lt_mul_right (hle.trans_lt hupper) hten.le

/-- The digits found between the boundaries of a number are rounded to that number. -/
theorem surrounds_boundaryDigits (hpos : 0 < x.significand) :
    x.Surrounds x.boundaryDigits.toRat := by
  obtain ⟨hlow, hhigh⟩ := boundaryDigits_between hpos
  have hupper := toRat_upperEnd x
  have hulp := ulp_pos x
  refine ⟨?_, ?_, ?_⟩
  · by_cases hleast : x.significand = Nat.pow 2 52
    · have hlower := (toRat_lowerEnd hpos).2 hleast
      linarith
    · have hlower := (toRat_lowerEnd hpos).1 hleast
      linarith
  · intro hleast
    have hlower := (toRat_lowerEnd hpos).2 hleast
    linarith
  · linarith

end Finite64

end NodeScrape
