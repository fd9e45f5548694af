import Mathlib.Order.Nat
import Mathlib.Tactic.SplitIfs
import NodeScrape.Binary64.Basic

/-!
# The order of numbers

Rounding respects the order: a quotient that is no greater than another is not rounded to a greater
number. So do sums of numbers without a sign.
-/

namespace NodeScrape

/-- A quotient by the same number is not rounded further up than a greater one. -/
theorem roundHalfEven_mono {a b : Nat} (hab : a ≤ b) (d : Nat) :
    roundHalfEven a d ≤ roundHalfEven b d := by
  have hdiv : a / d ≤ b / d := Nat.div_le_div_right hab
  rcases Nat.lt_or_eq_of_le hdiv with hlt | heq
  · exact (roundHalfEven_le a d).trans ((Nat.succ_le_of_lt hlt).trans (le_roundHalfEven b d))
  · have hmod : a % d ≤ b % d := by
      have ha := Nat.div_add_mod a d
      have hb := Nat.div_add_mod b d
      rw [heq] at ha
      omega
    unfold roundHalfEven
    dsimp only
    rw [heq]
    split_ifs <;> omega

namespace Binary64

variable {a b d : Nat}

/-- By how much a quotient is shifted before it is rounded. -/
def roundingShift (a d : Nat) : Nat := (a / d).log2 - 52

/-- The significand that a quotient is rounded to, before a carry. -/
def roundedPart (a d : Nat) : Nat := roundHalfEven a (d * Nat.pow 2 (roundingShift a d))

/-- The units that a quotient is rounded to. -/
def roundedUnits (a d : Nat) : Nat := roundedPart a d * Nat.pow 2 (roundingShift a d)

theorem roundedPart_le (a d : Nat) : roundedPart a d ≤ Nat.pow 2 53 := by
  refine (roundHalfEven_le _ _).trans ?_
  rw [← Nat.div_div_eq_div_mul]
  exact div_two_pow_lt (a / d)

theorem le_roundedPart (h : roundingShift a d ≠ 0) : Nat.pow 2 52 ≤ roundedPart a d := by
  refine Nat.le_trans ?_ (le_roundHalfEven _ _)
  rw [← Nat.div_div_eq_div_mul]
  exact le_div_two_pow h

theorem roundingShift_mono (hab : a ≤ b) (d : Nat) : roundingShift a d ≤ roundingShift b d := by
  have hdiv : a / d ≤ b / d := Nat.div_le_div_right hab
  refine Nat.sub_le_sub_right ?_ 52
  by_cases hzero : a / d = 0
  · rw [hzero]
    exact Nat.zero_le _
  · have hne : b / d ≠ 0 := fun h => hzero (Nat.le_zero.mp (h ▸ hdiv))
    exact (Nat.le_log2 hne).mpr ((Nat.log2_self_le hzero).trans hdiv)

/-- A carry out of the significand is the least significand of the next binade. -/
theorem carried (n : Nat) : Nat.pow 2 53 * Nat.pow 2 n = Nat.pow 2 52 * Nat.pow 2 (n + 1) := by
  simp only [Nat.pow_eq, Nat.pow_succ]
  omega

/-- A quotient in a lower binade is rounded to no more than the least number of a higher one. -/
theorem roundedUnits_mono (hab : a ≤ b) (d : Nat) : roundedUnits a d ≤ roundedUnits b d := by
  rcases Nat.lt_or_eq_of_le (roundingShift_mono hab d) with hlt | heq
  · calc roundedUnits a d ≤ Nat.pow 2 53 * Nat.pow 2 (roundingShift a d) :=
          Nat.mul_le_mul_right _ (roundedPart_le a d)
      _ = Nat.pow 2 52 * Nat.pow 2 (roundingShift a d + 1) := carried _
      _ ≤ Nat.pow 2 52 * Nat.pow 2 (roundingShift b d) :=
          Nat.mul_le_mul_left _ (Nat.pow_le_pow_right (by decide) hlt)
      _ ≤ roundedUnits b d := Nat.mul_le_mul_right _ (le_roundedPart (by omega))
  · rw [roundedUnits, roundedUnits, roundedPart, roundedPart, heq]
    exact Nat.mul_le_mul_right _ (roundHalfEven_mono hab _)

/-- The units beyond all finite numbers. -/
def unitsLimit : Nat := Nat.pow 2 53 * Nat.pow 2 2045

/-- A quotient is rounded to a number of its units, or to an infinity if there is none. -/
theorem ofUnitRatio_spec (negative : Bool) (a d : Nat) :
    (∃ x : Finite64, ofUnitRatio negative a d = .finite x ∧ x.negative = negative ∧
      x.units = roundedUnits a d ∧ roundedUnits a d < unitsLimit) ∨
    (ofUnitRatio negative a d = .infinity negative ∧ unitsLimit ≤ roundedUnits a d) := by
  have hpow {m n : Nat} (hmn : m ≤ n) : Nat.pow 2 m ≤ Nat.pow 2 n :=
    Nat.pow_le_pow_right (by decide) hmn
  obtain ⟨top, htop⟩ : ∃ top, top = 2045 := ⟨_, rfl⟩
  rw [unitsLimit, ← htop]
  by_cases hpart : roundedPart a d < Nat.pow 2 53
  · by_cases hshift : roundingShift a d ≤ 2045
    · left
      refine ⟨_, (dif_pos hpart).trans (dif_pos hshift), rfl, rfl, ?_⟩
      exact Nat.mul_lt_mul_of_lt_of_le hpart (hpow (htop ▸ hshift)) (Nat.two_pow_pos _)
    · right
      refine ⟨(dif_pos hpart).trans (dif_neg hshift), ?_⟩
      rw [carried]
      exact Nat.mul_le_mul (le_roundedPart (by omega)) (hpow (by omega))
  · have hfull : roundedPart a d = Nat.pow 2 53 :=
      Nat.le_antisymm (roundedPart_le a d) (Nat.le_of_not_lt hpart)
    by_cases hshift : roundingShift a d + 1 ≤ 2045
    · left
      refine ⟨_, (dif_neg hpart).trans (dif_pos hshift), rfl, ?_, ?_⟩
      · rw [roundedUnits, hfull]
        exact (carried _).symm
      · rw [roundedUnits, hfull]
        exact Nat.mul_lt_mul_of_pos_left (Nat.pow_lt_pow_right (by decide) (by omega))
          (Nat.two_pow_pos 53)
    · right
      refine ⟨(dif_neg hpart).trans (dif_neg hshift), ?_⟩
      rw [roundedUnits, hfull]
      exact Nat.mul_le_mul_left _ (hpow (by omega))

/-- Rounding respects the order. -/
theorem ofUnitRatio_le (hab : a ≤ b) (d : Nat) :
    (ofUnitRatio false a d).le (ofUnitRatio false b d) = true := by
  have hunits := roundedUnits_mono hab d
  rcases ofUnitRatio_spec false a d with ⟨x, hx, hxneg, hxunits, -⟩ | ⟨hx, hxlimit⟩ <;>
    rcases ofUnitRatio_spec false b d with ⟨y, hy, hyneg, hyunits, hylimit⟩ | ⟨hy, -⟩ <;>
    rw [hx, hy]
  · have hscaled : x.scaled ≤ y.scaled := by
      simp only [Finite64.scaled, hxneg, hyneg, hxunits, hyunits]
      simpa using hunits
    exact decide_eq_true hscaled
  · rfl
  · exact absurd (hxlimit.trans hunits) (Nat.not_le_of_lt hylimit)
  · rfl

/-- Two numbers without a sign are added by their units. -/
theorem add_of_unsigned {x y : Finite64} (hx : x.negative = false) (hy : y.negative = false) :
    add (.finite x) (.finite y) = ofUnitRatio false (x.units + y.units) 1 := by
  have hsum : x.scaled + y.scaled = (x.units + y.units : Nat) := by
    simp [Finite64.scaled, hx, hy]
  rw [add]
  simp only [hsum, hx, hy]
  split
  next hzero =>
    have hunits : x.units + y.units = 0 := by exact_mod_cast hzero
    rw [hunits]
    rfl
  next =>
    have hneg : ¬((x.units + y.units : Nat) : Int) < 0 := by omega
    rw [decide_eq_false hneg, Int.natAbs_natCast]

/-- A sum of numbers without a sign is not undefined. -/
theorem add_le_infinity (a d b d' : Nat) :
    ((ofUnitRatio false a d).add (ofUnitRatio false b d')).le (.infinity false) = true := by
  rcases ofUnitRatio_spec false a d with ⟨x, hx, hxneg, -⟩ | ⟨hx, -⟩ <;>
    rcases ofUnitRatio_spec false b d' with ⟨y, hy, hyneg, -⟩ | ⟨hy, -⟩ <;>
    rw [hx, hy]
  · rw [add_of_unsigned hxneg hyneg]
    rcases ofUnitRatio_spec false (x.units + y.units) 1 with ⟨z, hz, -⟩ | ⟨hz, -⟩ <;>
      rw [hz] <;> rfl
  all_goals rfl

/-- A sum of numbers without a sign is no greater than one of greater numbers. -/
theorem add_le_add {a' b' d' : Nat} (ha : a ≤ a') (hb : b ≤ b') :
    ((ofUnitRatio false a d).add (ofUnitRatio false b d')).le
      ((ofUnitRatio false a' d).add (ofUnitRatio false b' d')) = true := by
  have haUnits := roundedUnits_mono ha d
  have hbUnits := roundedUnits_mono hb d'
  rcases ofUnitRatio_spec false a' d with ⟨x', hx', hxneg', hxunits', hxlimit'⟩ | ⟨hx', -⟩
  · rcases ofUnitRatio_spec false b' d' with ⟨y', hy', hyneg', hyunits', hylimit'⟩ | ⟨hy', -⟩
    · -- Both of the greater terms are finite, so the others are.
      obtain ⟨x, hx, hxneg, hxunits, -⟩ := (ofUnitRatio_spec false a d).resolve_right
        fun h => absurd (h.2.trans haUnits) (Nat.not_le_of_lt hxlimit')
      obtain ⟨y, hy, hyneg, hyunits, -⟩ := (ofUnitRatio_spec false b d').resolve_right
        fun h => absurd (h.2.trans hbUnits) (Nat.not_le_of_lt hylimit')
      rw [hx, hy, hx', hy', add_of_unsigned hxneg hyneg, add_of_unsigned hxneg' hyneg']
      exact ofUnitRatio_le (by omega) 1
    · have hsum : (ofUnitRatio false a' d).add (ofUnitRatio false b' d') = .infinity false := by
        rw [hx', hy']
        rfl
      rw [hsum]
      exact add_le_infinity ..
  · have hsum : (ofUnitRatio false a' d).add (ofUnitRatio false b' d') = .infinity false := by
      rw [hx']
      rcases ofUnitRatio_spec false b' d' with ⟨y', hy', -⟩ | ⟨hy', -⟩ <;> rw [hy'] <;> rfl
    rw [hsum]
    exact add_le_infinity ..

theorem le_trans {x y z : Binary64} (hxy : x.le y = true) (hyz : y.le z = true) :
    x.le z = true := by
  cases x <;> cases y <;> cases z <;> grind [le]

end Binary64

end NodeScrape
