import Mathlib.Algebra.Order.Field.Power
import Mathlib.Data.Rat.Cast.Order
import Mathlib.Tactic.FieldSimp
import Mathlib.Tactic.Linarith
import Mathlib.Tactic.Positivity
import Mathlib.Tactic.Ring
import NodeScrape.Binary64.Decimal

/-!
# Rounding to the nearest number

A finite number lies between two boundaries, half way to its neighbours. Whatever lies strictly
between them is rounded to that number: a quotient of whole numbers, and a decimal number of any
exponent.
-/

namespace NodeScrape

/-! ## Whole numbers -/

section Whole

variable {a d s : Nat}

/-- A quotient is rounded down if its remainder is at most a half, and up if it is at least that. -/
theorem roundHalfEven_cases (a d : Nat) :
    (roundHalfEven a d = a / d ∧ 2 * (a % d) ≤ d) ∨
      (roundHalfEven a d = a / d + 1 ∧ d ≤ 2 * (a % d)) := by
  unfold roundHalfEven
  dsimp only
  split
  · exact .inl ⟨rfl, by omega⟩
  split
  · exact .inr ⟨rfl, by omega⟩
  split
  · exact .inl ⟨rfl, by omega⟩
  · exact .inr ⟨rfl, by omega⟩

/-- A quotient is rounded by at most a half. -/
theorem roundHalfEven_near (hd : 0 < d) :
    2 * (roundHalfEven a d * d) ≤ 2 * a + d ∧ 2 * a ≤ 2 * (roundHalfEven a d * d) + d := by
  have hdiv : a / d * d + a % d = a := Nat.div_add_mod' a d
  have hmod : a % d < d := Nat.mod_lt a hd
  rcases roundHalfEven_cases a d with ⟨heq, hrest⟩ | ⟨heq, hrest⟩
  · rw [heq]
    omega
  · rw [heq, Nat.add_mul, Nat.one_mul]
    omega

/-- A quotient less than a half away from a whole number is rounded to it. -/
theorem roundHalfEven_eq (hlow : 2 * (s * d) < 2 * a + d) (hhigh : 2 * a < 2 * (s * d) + d) :
    roundHalfEven a d = s := by
  have hd : 0 < d := by omega
  obtain ⟨hbelow, habove⟩ := roundHalfEven_near (a := a) hd
  have hle : roundHalfEven a d < s + 1 := by
    refine Nat.lt_of_mul_lt_mul_right (a := d) ?_
    rw [Nat.add_mul, Nat.one_mul]
    omega
  have hge : s < roundHalfEven a d + 1 := by
    refine Nat.lt_of_mul_lt_mul_right (a := d) ?_
    rw [Nat.add_mul, Nat.one_mul]
    omega
  omega

end Whole

namespace Binary64

/-! ## Quotients of units -/

variable {a d : Nat} {x : Finite64}

/-- The shift that a quotient is rounded at leaves it within 53 bits, and no shorter unless there is
no shift at all. -/
theorem shift_eq {t : Nat} (hd : 0 < d) (hhigh : a < Nat.pow 2 (53 + t) * d)
    (hlow : t = 0 ∨ Nat.pow 2 (52 + t) * d ≤ a) : (a / d).log2 - 52 = t := by
  have hlt : a / d < 2 ^ (53 + t) := Nat.div_lt_of_lt_mul (by rwa [Nat.mul_comm])
  rcases hlow with rfl | hle
  · by_cases hzero : a / d = 0
    · rw [hzero]
      rfl
    · have hlog : (a / d).log2 < 53 := (Nat.log2_lt hzero).mpr hlt
      omega
  · have hge : 2 ^ (52 + t) ≤ a / d := (Nat.le_div_iff_mul_le hd).mpr hle
    have hne : a / d ≠ 0 := by
      have hpos := Nat.two_pow_pos (52 + t)
      omega
    have hlog : (a / d).log2 = 52 + t :=
      (Nat.log2_eq_iff hne).mpr ⟨hge, by rwa [Nat.add_right_comm]⟩
    omega

/-- A quotient in the binade of a number, and between the boundaries around it, is rounded to it. -/
theorem ofUnitRatio_of_le {unit : Nat} (hd : 0 < d) (hunit : unit = d * Nat.pow 2 x.shift)
    (hbinade : x.shift = 0 ∨ Nat.pow 2 (52 + x.shift) * d ≤ a)
    (hlow : 2 * (x.significand * unit) < 2 * a + unit)
    (hhigh : 2 * a < 2 * (x.significand * unit) + unit) :
    ofUnitRatio x.negative a d = .finite x := by
  have hlt := x.significand_lt
  have hround : roundHalfEven a (d * Nat.pow 2 x.shift) = x.significand :=
    roundHalfEven_eq (hunit ▸ hlow) (hunit ▸ hhigh)
  have hbelow : a < Nat.pow 2 (53 + x.shift) * d := by
    have hmax : (x.significand + 1) * unit ≤ Nat.pow 2 53 * unit := Nat.mul_le_mul_right unit hlt
    have hpow : Nat.pow 2 (53 + x.shift) * d = Nat.pow 2 53 * unit := by
      simp only [hunit, Nat.pow_eq, Nat.pow_add]
      ring
    rw [Nat.add_mul, Nat.one_mul] at hmax
    omega
  have hshift := shift_eq hd hbelow hbinade
  simp only [ofUnitRatio, hshift, hround]
  rw [dif_pos hlt, dif_pos x.shift_le]

/-- A quotient in the binade below a number, and beyond the boundary between them, is rounded up to
it. Only the least significand has such quotients. -/
theorem ofUnitRatio_of_lt {unit t : Nat} (hd : 0 < d) (hunit : unit = d * Nat.pow 2 x.shift)
    (ht : x.shift = t + 1) (hless : a < Nat.pow 2 (52 + x.shift) * d)
    (hlow : 2 * (x.significand * unit) < 2 * a + unit)
    (hhalf : x.significand = Nat.pow 2 52 → 4 * (x.significand * unit) < 4 * a + unit) :
    ofUnitRatio x.negative a d = .finite x := by
  obtain ⟨half, hhalfUnit⟩ : ∃ half, half = d * Nat.pow 2 t := ⟨_, rfl⟩
  have htwice : unit = 2 * half := by
    simp only [hunit, hhalfUnit, ht, Nat.pow_eq, Nat.pow_succ]
    ring
  have hplaces (k : Nat) : Nat.pow 2 (k + t) * d = Nat.pow 2 k * half := by
    simp only [hhalfUnit, Nat.pow_eq, Nat.pow_add]
    ring
  have hbelow : a < Nat.pow 2 (53 + t) * d := by
    have hsame : 52 + x.shift = 53 + t := by omega
    rwa [hsame] at hless
  have hleast : x.significand = Nat.pow 2 52 := by
    have hge : Nat.pow 2 52 ≤ x.significand := x.normal.resolve_right (by omega)
    have hle : x.significand < Nat.pow 2 52 + 1 := by
      refine Nat.lt_of_mul_lt_mul_right (a := unit) ?_
      rw [hplaces] at hbelow
      simp only [htwice, Nat.pow_eq] at hlow hbelow ⊢
      omega
    omega
  have habove := hhalf hleast
  rw [hleast, htwice] at habove
  have hround : roundHalfEven a (d * Nat.pow 2 t) = Nat.pow 2 53 := by
    rw [hplaces] at hbelow
    rw [← hhalfUnit]
    simp only [Nat.pow_eq] at habove hbelow ⊢
    exact roundHalfEven_eq (by omega) (by omega)
  have hshift : (a / d).log2 - 52 = t := by
    refine shift_eq hd hbelow (.inr ?_)
    rw [hplaces]
    simp only [Nat.pow_eq] at habove ⊢
    omega
  have hle : t + 1 ≤ 2045 := ht ▸ x.shift_le
  obtain ⟨negative, significand, shift, hlt, hnormal, hshiftLe⟩ := x
  subst hleast ht
  simp only [ofUnitRatio, hshift, hround]
  rw [dif_neg (Nat.lt_irrefl _), dif_pos hle]

/-- A quotient between the boundaries of a number is rounded to it. The boundary below the least
significand of a binade is half as far away as the others. -/
theorem ofUnitRatio_eq {unit : Nat} (hunit : unit = d * Nat.pow 2 x.shift)
    (hlow : 2 * (x.significand * unit) < 2 * a + unit)
    (hhalf : x.significand = Nat.pow 2 52 → 4 * (x.significand * unit) < 4 * a + unit)
    (hhigh : 2 * a < 2 * (x.significand * unit) + unit) :
    ofUnitRatio x.negative a d = .finite x := by
  have hd : 0 < d := by
    by_contra hzero
    obtain rfl : d = 0 := by omega
    simp [hunit] at hlow hhigh
  by_cases hbinade : x.shift = 0 ∨ Nat.pow 2 (52 + x.shift) * d ≤ a
  · exact ofUnitRatio_of_le hd hunit hbinade hlow hhigh
  · obtain ⟨hne, hless⟩ := not_or.mp hbinade
    obtain ⟨t, ht⟩ : ∃ t, x.shift = t + 1 := ⟨x.shift - 1, by omega⟩
    exact ofUnitRatio_of_lt hd hunit ht (by omega) hlow hhalf

end Binary64

/-! ## Ratios and decimal numbers -/

namespace Finite64

/-- The unit in the last place of a number. -/
def ulp (x : Finite64) : ℚ := 2 ^ ((x.shift : ℤ) - 1074)

/-- A magnitude lies strictly between the boundaries of a number. Below the least significand of a
binade the boundary is half as far away. -/
structure Surrounds (x : Finite64) (q : ℚ) : Prop where
  low : 2 * (x.significand * x.ulp) < 2 * q + x.ulp
  half : x.significand = Nat.pow 2 52 → 4 * (x.significand * x.ulp) < 4 * q + x.ulp
  high : 2 * q < 2 * (x.significand * x.ulp) + x.ulp

variable {x : Finite64}

theorem ulp_pos (x : Finite64) : 0 < x.ulp := zpow_pos (by norm_num) _

theorem cast_two_pow (n : Nat) : ((Nat.pow 2 n : Nat) : ℚ) = 2 ^ (n : ℤ) := by
  rw [Nat.pow_eq, Nat.cast_pow, Nat.cast_ofNat, zpow_natCast]

/-- The exponent is kept apart from the power, which is too large to be computed. -/
theorem unitsInOne_eq : ∃ n, n = 1074 ∧ unitsInOne = Nat.pow 2 n := by
  unfold unitsInOne
  exact ⟨_, rfl, rfl⟩

/-- Units of the last place as the least units of all. -/
theorem ulp_mul_unitsInOne (x : Finite64) : x.ulp * unitsInOne = (Nat.pow 2 x.shift : Nat) := by
  obtain ⟨n, hn, hunits⟩ := unitsInOne_eq
  rw [ulp, hunits, cast_two_pow, cast_two_pow, ← zpow_add₀ (by norm_num)]
  clear hunits
  congr 1
  omega

theorem unitsInOne_pos : 0 < unitsInOne := by
  obtain ⟨n, -, hunits⟩ := unitsInOne_eq
  rw [hunits]
  exact Nat.two_pow_pos n

/-- All magnitudes that are rounded to a number other than zero lie above `2 ^ -1075`. -/
theorem Surrounds.least {q : ℚ} (h : x.Surrounds q) (hpos : 0 < x.significand) :
    (2 : ℚ) ^ (-1075 : ℤ) < q := by
  have hone : (1 : ℚ) ≤ x.significand := by exact_mod_cast hpos
  have hulp : (2 : ℚ) ^ (-1074 : ℤ) ≤ x.ulp :=
    zpow_le_zpow_right₀ (by norm_num) (by omega)
  have hlow := h.low
  have hhalf : (2 : ℚ) ^ (-1074 : ℤ) = 2 * 2 ^ (-1075 : ℤ) := by
    rw [← zpow_one_add₀ (by norm_num)]
    norm_num
  have hmul : x.ulp ≤ x.significand * x.ulp := le_mul_of_one_le_left (ulp_pos x).le hone
  linarith

/-- All magnitudes that are rounded to a finite number lie below `2 ^ 1024`. -/
theorem Surrounds.greatest {q : ℚ} (h : x.Surrounds q) : q < (2 : ℚ) ^ (1024 : ℤ) := by
  have hlt : (x.significand : ℚ) + 1 ≤ 2 ^ 53 := by exact_mod_cast x.significand_lt
  have hulp : x.ulp ≤ (2 : ℚ) ^ (971 : ℤ) := by
    refine zpow_le_zpow_right₀ (by norm_num) ?_
    have hshift := x.shift_le
    omega
  have htop : (2 : ℚ) ^ 53 * 2 ^ (971 : ℤ) = 2 ^ (1024 : ℤ) := by
    rw [← zpow_natCast, ← zpow_add₀ (by norm_num)]
    norm_num
  have hmul : ((x.significand : ℚ) + 1) * x.ulp ≤ 2 ^ 53 * 2 ^ (971 : ℤ) :=
    mul_le_mul hlt hulp (ulp_pos x).le (by positivity)
  have hhigh := h.high
  have hulpPos := ulp_pos x
  rw [htop, add_mul, one_mul] at hmul
  linarith

end Finite64

namespace Binary64

variable {x : Finite64}

/-- A ratio between the boundaries of a number is rounded to it. -/
theorem ofRatio_eq {num den : Nat} (hden : 0 < den) (h : x.Surrounds (num / den)) :
    ofRatio x.negative num den = .finite x := by
  have hunit : ((den * Nat.pow 2 x.shift : Nat) : ℚ) = x.ulp * (den * unitsInOne) := by
    rw [Nat.cast_mul, ← Finite64.ulp_mul_unitsInOne]
    ring
  have hnum : ((num * unitsInOne : Nat) : ℚ) = num / den * (den * unitsInOne) := by
    have hne : (den : ℚ) ≠ 0 := by exact_mod_cast hden.ne'
    rw [Nat.cast_mul, ← mul_assoc, div_mul_cancel₀ _ hne]
  have hscale : (0 : ℚ) < den * unitsInOne := by
    have hunits : (0 : ℚ) < (unitsInOne : Nat) := by exact_mod_cast Finite64.unitsInOne_pos
    have hden' : (0 : ℚ) < den := by exact_mod_cast hden
    exact mul_pos hden' hunits
  refine ofUnitRatio_eq rfl ?_ ?_ ?_
  · have hlow := mul_lt_mul_of_pos_right h.low hscale
    have hcast : (2 * (x.significand * (den * Nat.pow 2 x.shift : Nat)) : ℚ) <
        2 * (num * unitsInOne : Nat) + (den * Nat.pow 2 x.shift : Nat) := by
      rw [hunit, hnum]
      linarith
    exact_mod_cast hcast
  · intro hleast
    have hhalf := mul_lt_mul_of_pos_right (h.half hleast) hscale
    have hcast : (4 * (x.significand * (den * Nat.pow 2 x.shift : Nat)) : ℚ) <
        4 * (num * unitsInOne : Nat) + (den * Nat.pow 2 x.shift : Nat) := by
      rw [hunit, hnum]
      linarith
    exact_mod_cast hcast
  · have hhigh := mul_lt_mul_of_pos_right h.high hscale
    have hcast : (2 * (num * unitsInOne : Nat) : ℚ) <
        2 * (x.significand * (den * Nat.pow 2 x.shift : Nat)) + (den * Nat.pow 2 x.shift : Nat) := by
      rw [hunit, hnum]
      linarith
    exact_mod_cast hcast

/-- The decimal logarithm of a number is at least three tenths of the binary one, and but little
more. -/
theorem pow_ten_le {digits : Nat} (hpos : 0 < digits) :
    (10 : ℚ) ^ (digits.log2 * 3 / 10) ≤ digits ∧
      (digits : ℚ) < 10 ^ (digits.log2 * 3 / 10 + digits.log2 / 16 + 2) := by
  have hself : 2 ^ digits.log2 ≤ digits := Nat.log2_self_le hpos.ne'
  have hnext : digits < 2 ^ (digits.log2 + 1) := Nat.lt_log2_self
  generalize digits.log2 = n at hself hnext ⊢
  constructor
  · have hcube : (10 ^ (n * 3 / 10)) ^ 3 ≤ (2 ^ n) ^ 3 := by
      calc (10 ^ (n * 3 / 10)) ^ 3 = 1000 ^ (n * 3 / 10) := by
            rw [← Nat.pow_mul, Nat.mul_comm, Nat.pow_mul]
        _ ≤ 1024 ^ (n * 3 / 10) := Nat.pow_le_pow_left (by decide) _
        _ = 2 ^ (10 * (n * 3 / 10)) := by rw [Nat.pow_mul]
        _ ≤ 2 ^ (n * 3) := Nat.pow_le_pow_right (by decide) (by omega)
        _ = (2 ^ n) ^ 3 := by rw [Nat.pow_mul]
    have hle : 10 ^ (n * 3 / 10) ≤ 2 ^ n := (Nat.pow_le_pow_iff_left (by decide)).mp hcube
    exact_mod_cast hle.trans hself
  · have hle : 2 ^ (n + 1) ≤ 10 ^ (n * 3 / 10 + n / 16 + 2) := by
      calc 2 ^ (n + 1) ≤ 2 ^ (3 * (n * 3 / 10 + n / 16 + 2)) :=
            Nat.pow_le_pow_right (by decide) (by omega)
        _ = 8 ^ (n * 3 / 10 + n / 16 + 2) := by rw [Nat.pow_mul]
        _ ≤ 10 ^ (n * 3 / 10 + n / 16 + 2) := Nat.pow_le_pow_left (by decide) _
    exact_mod_cast hnext.trans_le hle

theorem two_pow_lt_pow_ten : (2 : ℚ) ^ (1024 : ℤ) < 10 ^ (309 : ℤ) := by
  have hnat : 2 ^ 1024 < 10 ^ 309 := by decide +kernel
  exact_mod_cast hnat

theorem pow_ten_lt_two_pow : (10 : ℚ) ^ (-324 : ℤ) < 2 ^ (-1075 : ℤ) := by
  have hnat : 2 ^ 1075 < 10 ^ 324 := by decide +kernel
  rw [zpow_neg, zpow_neg]
  refine inv_strictAnti₀ (by positivity) ?_
  exact_mod_cast hnat

section Reach

variable {digits : Nat} {exponent : ℤ}

/-- A decimal number in reach from above is not taken for an infinity. -/
theorem exponent_lt (hpos : 0 < digits) (hlt : (digits : ℚ) * 10 ^ exponent < 2 ^ (1024 : ℤ)) :
    exponent + (digits.log2 * 3 / 10 : Nat) < 309 := by
  have hbelow := (pow_ten_le hpos).1
  have hten : (0 : ℚ) < 10 ^ exponent := by positivity
  have hpow : (10 : ℚ) ^ (exponent + (digits.log2 * 3 / 10 : Nat)) < 10 ^ (309 : ℤ) := by
    calc (10 : ℚ) ^ (exponent + (digits.log2 * 3 / 10 : Nat)) =
          10 ^ (digits.log2 * 3 / 10) * 10 ^ exponent := by
          rw [zpow_add₀ (by norm_num), zpow_natCast, mul_comm]
      _ ≤ digits * 10 ^ exponent := mul_le_mul_of_nonneg_right hbelow hten.le
      _ < 2 ^ (1024 : ℤ) := hlt
      _ < 10 ^ (309 : ℤ) := two_pow_lt_pow_ten
  exact (zpow_lt_zpow_iff_right₀ (by norm_num)).mp hpow

/-- A decimal number in reach from below is not taken for zero. -/
theorem lt_exponent (hpos : 0 < digits) (hlt : (2 : ℚ) ^ (-1075 : ℤ) < digits * 10 ^ exponent) :
    -324 < exponent + (digits.log2 * 3 / 10 + digits.log2 / 16 + 2 : Nat) := by
  have habove := (pow_ten_le hpos).2
  have hten : (0 : ℚ) < 10 ^ exponent := by positivity
  have hpow : (10 : ℚ) ^ (-324 : ℤ) <
      10 ^ (exponent + (digits.log2 * 3 / 10 + digits.log2 / 16 + 2 : Nat)) := by
    calc (10 : ℚ) ^ (-324 : ℤ) < 2 ^ (-1075 : ℤ) := pow_ten_lt_two_pow
      _ < digits * 10 ^ exponent := hlt
      _ ≤ 10 ^ (digits.log2 * 3 / 10 + digits.log2 / 16 + 2) * 10 ^ exponent :=
          mul_le_mul_of_nonneg_right habove.le hten.le
      _ = 10 ^ (exponent + (digits.log2 * 3 / 10 + digits.log2 / 16 + 2 : Nat)) := by
          rw [zpow_add₀ (by norm_num), zpow_natCast, mul_comm]
  exact (zpow_lt_zpow_iff_right₀ (by norm_num)).mp hpow

/-- A decimal number between the boundaries of a number is rounded to it. -/
theorem ofDecimal_eq (hpos : 0 < x.significand) (h : x.Surrounds (digits * 10 ^ exponent)) :
    ofDecimal x.negative digits exponent = .finite x := by
  have hdigits : 0 < digits := by
    rcases Nat.eq_zero_or_pos digits with rfl | hdigits
    · have hleast := h.least hpos
      have htwo : (0 : ℚ) < 2 ^ (-1075 : ℤ) := by positivity
      rw [Nat.cast_zero, zero_mul] at hleast
      exact absurd (htwo.trans hleast) (lt_irrefl 0)
    · exact hdigits
  have hexponentLt := exponent_lt hdigits h.greatest
  have hltExponent := lt_exponent hdigits (h.least hpos)
  have hlarge : ¬ (400 < exponent + (digits.log2 * 3 / 10 : Nat)) := by omega
  have hsmall :
      ¬ (exponent + (digits.log2 * 3 / 10 : Nat) + (digits.log2 / 16 : Nat) + 2 < -400) := by
    omega
  simp only [ofDecimal, if_neg hdigits.ne', if_neg hlarge, if_neg hsmall]
  cases exponent with
  | ofNat e =>
    refine ofRatio_eq (by decide) ?_
    have hvalue : ((digits * Nat.pow 10 e : Nat) : ℚ) / (1 : Nat) = digits * 10 ^ (Int.ofNat e) := by
      rw [Nat.pow_eq]
      push_cast
      rw [div_one, Int.ofNat_eq_natCast, zpow_natCast]
    rwa [hvalue]
  | negSucc e =>
    refine ofRatio_eq (Nat.pow_pos (by decide)) ?_
    have hvalue : (digits : ℚ) / (Nat.pow 10 (e + 1) : Nat) = digits * 10 ^ (Int.negSucc e) := by
      rw [Nat.pow_eq]
      push_cast
      rw [zpow_negSucc, div_eq_mul_inv]
    rwa [hvalue]

end Reach

end Binary64

end NodeScrape
