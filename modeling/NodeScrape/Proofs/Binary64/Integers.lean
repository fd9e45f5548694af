import NodeScrape.Proofs.Binary64.Order
import NodeScrape.Proofs.Binary64.Rounding

/-!
# Integers among the numbers

A quotient that is a number itself is kept, and so are all integers of at most 53 bits. A fraction
added to a natural number is absorbed if it is less than half of the gap behind that number; at
exactly a half the even significand decides.
-/

namespace NodeScrape

/-- A quotient without a remainder is kept. -/
theorem roundHalfEven_mul (s : Nat) {d : Nat} (hd : 0 < d) : roundHalfEven (s * d) d = s :=
  roundHalfEven_eq (by omega) (by omega)

/-- A quotient is rounded down to `s` if it exceeds `s` by less than a half. -/
theorem roundHalfEven_add_eq_iff (s : Nat) {r d : Nat} (hd : 0 < d) :
    roundHalfEven (s * d + r) d = s ↔ 2 * r < d ∨ 2 * r = d ∧ s % 2 = 0 := by
  rcases Nat.lt_or_ge r d with hr | hr
  · have hdiv : (s * d + r) / d = s := by
      rw [Nat.add_comm, Nat.add_mul_div_right _ _ hd, Nat.div_eq_of_lt hr, Nat.zero_add]
    have hmod : (s * d + r) % d = r := by
      rw [Nat.mul_add_mod_self_right, Nat.mod_eq_of_lt hr]
    unfold roundHalfEven
    dsimp only
    rw [hdiv, hmod]
    split_ifs <;> omega
  · have hdiv : s + 1 ≤ (s * d + r) / d := by
      rw [Nat.le_div_iff_mul_le hd, Nat.add_mul, Nat.one_mul]
      exact Nat.add_le_add_left hr _
    have hround := le_roundHalfEven (s * d + r) d
    omega

namespace Binary64

variable {c d e m n : Nat}

/-! ## Quotients that are kept -/

/-- A significand of 53 bits is kept at any place. -/
theorem roundedUnits_exact (hd : 0 < d) (hm : m < Nat.pow 2 53) :
    roundedUnits (m * Nat.pow 2 e * d) d = m * Nat.pow 2 e := by
  have hshift : roundingShift (m * Nat.pow 2 e * d) d ≤ e := by
    rw [roundingShift, Nat.mul_div_cancel _ hd]
    rcases Nat.eq_zero_or_pos (m * Nat.pow 2 e) with hzero | hpos
    · rw [hzero]
      exact Nat.zero_le e
    · have hlt : m * Nat.pow 2 e < 2 ^ (53 + e) := by
        rw [Nat.pow_add]
        exact Nat.mul_lt_mul_of_pos_right hm (Nat.two_pow_pos e)
      have hlog := (Nat.log2_lt hpos.ne').mpr hlt
      omega
  obtain ⟨k, hk⟩ := Nat.exists_eq_add_of_le hshift
  rw [roundedUnits, roundedPart]
  generalize roundingShift (m * Nat.pow 2 e * d) d = t at hk
  have hsplit : m * Nat.pow 2 e = m * Nat.pow 2 k * Nat.pow 2 t := by
    simp only [hk, Nat.pow_eq, Nat.pow_add]
    ring
  have hmul : m * Nat.pow 2 e * d = m * Nat.pow 2 k * (d * Nat.pow 2 t) := by
    rw [hsplit]
    ring
  have hunit : 0 < d * Nat.pow 2 t := Nat.mul_pos hd (Nat.two_pow_pos t)
  rw [hmul, roundHalfEven_mul _ hunit, hsplit]

theorem roundedUnits_zero (hd : 0 < d) : roundedUnits 0 d = 0 := by
  simpa using roundedUnits_exact (e := 0) hd (by decide : 0 < Nat.pow 2 53)

/-- No whole unit is lost. -/
theorem roundedUnits_one_eq_zero_iff {a : Nat} : roundedUnits a 1 = 0 ↔ a = 0 := by
  constructor
  · intro hzero
    by_contra hne
    have hone : roundedUnits 1 1 = 1 := by
      simpa using roundedUnits_exact (e := 0) Nat.one_pos (by decide : 1 < Nat.pow 2 53)
    have hle := roundedUnits_mono (Nat.one_le_iff_ne_zero.mpr hne) 1
    omega
  · rintro rfl
    exact roundedUnits_zero Nat.one_pos

/-- A power of two is kept. -/
theorem roundedUnits_two_pow (hd : 0 < d) : roundedUnits (d * Nat.pow 2 e) d = Nat.pow 2 e := by
  have hexact := roundedUnits_exact (e := e) hd (by decide : 1 < Nat.pow 2 53)
  rwa [Nat.one_mul, Nat.mul_comm] at hexact

/-- A quotient below a power of two is not rounded up to it if its denominator has no more than 53
bits: the number before that power lies in between. -/
theorem roundedUnits_lt_two_pow (hcd : c < d) (hd : d ≤ Nat.pow 2 53) (he : 53 ≤ e) :
    roundedUnits (c * Nat.pow 2 e) d < Nat.pow 2 e := by
  obtain ⟨k, rfl⟩ := Nat.exists_eq_add_of_le he
  have hpow : Nat.pow 2 (53 + k) = Nat.pow 2 53 * Nat.pow 2 k := Nat.pow_add 2 53 k
  have hpos : 0 < Nat.pow 2 k := Nat.two_pow_pos k
  have hbelow : c * Nat.pow 2 (53 + k) ≤ (Nat.pow 2 53 - 1) * Nat.pow 2 k * d := by
    have hle : c * Nat.pow 2 53 ≤ (Nat.pow 2 53 - 1) * d := by
      simp only [Nat.pow_eq] at hd ⊢
      omega
    calc c * Nat.pow 2 (53 + k) = c * Nat.pow 2 53 * Nat.pow 2 k := by rw [hpow, Nat.mul_assoc]
      _ ≤ (Nat.pow 2 53 - 1) * d * Nat.pow 2 k := Nat.mul_le_mul_right _ hle
      _ = (Nat.pow 2 53 - 1) * Nat.pow 2 k * d := Nat.mul_right_comm ..
  calc roundedUnits (c * Nat.pow 2 (53 + k)) d
      ≤ roundedUnits ((Nat.pow 2 53 - 1) * Nat.pow 2 k * d) d := roundedUnits_mono hbelow d
    _ = (Nat.pow 2 53 - 1) * Nat.pow 2 k :=
        roundedUnits_exact (Nat.zero_lt_of_lt hcd) (by decide)
    _ < Nat.pow 2 (53 + k) := by
        rw [hpow]
        exact Nat.mul_lt_mul_of_pos_right (by decide) hpos

/-- A quotient above a power of two is not rounded down to it if its denominator has no more than 52
bits. -/
theorem two_pow_lt_roundedUnits (hpos : 0 < d) (hcd : d < c) (hd : d ≤ Nat.pow 2 52)
    (he : 52 ≤ e) : Nat.pow 2 e < roundedUnits (c * Nat.pow 2 e) d := by
  obtain ⟨k, rfl⟩ := Nat.exists_eq_add_of_le he
  have hpow : Nat.pow 2 (52 + k) = Nat.pow 2 52 * Nat.pow 2 k := Nat.pow_add 2 52 k
  have habove : (Nat.pow 2 52 + 1) * Nat.pow 2 k * d ≤ c * Nat.pow 2 (52 + k) := by
    have hle : (Nat.pow 2 52 + 1) * d ≤ c * Nat.pow 2 52 := by
      simp only [Nat.pow_eq] at hd ⊢
      omega
    calc (Nat.pow 2 52 + 1) * Nat.pow 2 k * d = (Nat.pow 2 52 + 1) * d * Nat.pow 2 k :=
          Nat.mul_right_comm ..
      _ ≤ c * Nat.pow 2 52 * Nat.pow 2 k := Nat.mul_le_mul_right _ hle
      _ = c * Nat.pow 2 (52 + k) := by rw [hpow, Nat.mul_assoc]
  calc Nat.pow 2 (52 + k) < (Nat.pow 2 52 + 1) * Nat.pow 2 k := by
        rw [hpow]
        exact Nat.mul_lt_mul_of_pos_right (by decide) (Nat.two_pow_pos k)
    _ = roundedUnits ((Nat.pow 2 52 + 1) * Nat.pow 2 k * d) d :=
        (roundedUnits_exact hpos (by decide)).symm
    _ ≤ roundedUnits (c * Nat.pow 2 (52 + k)) d := roundedUnits_mono habove d

/-! ## Fractions -/

section Fractions

variable {j : Nat}

/-- The number one is a power of two times any smaller one. -/
theorem exists_unitsInOne_eq (hj : j ≤ 1021) :
    ∃ e, 53 ≤ e ∧ unitsInOne = Nat.pow 2 j * Nat.pow 2 e := by
  obtain ⟨k, hk, hone⟩ := Finite64.unitsInOne_eq
  refine ⟨k - j, by omega, ?_⟩
  rw [hone]
  have hsum : k = j + (k - j) := by omega
  conv_lhs => rw [hsum]
  exact Nat.pow_add 2 j (k - j)

/-- Rounding does not move a fraction across `2 ^ -j`, nor onto it. -/
theorem compare_fraction (hpos : 0 < d) (hd : d ≤ Nat.pow 2 52) (hj : j ≤ 1021) :
    compare (roundedUnits (c * unitsInOne) d * Nat.pow 2 j) unitsInOne =
      compare (c * Nat.pow 2 j) d := by
  obtain ⟨e, he, hone⟩ := exists_unitsInOne_eq hj
  have hplace : 0 < Nat.pow 2 j := Nat.two_pow_pos j
  have hmul : c * unitsInOne = c * Nat.pow 2 j * Nat.pow 2 e := by
    rw [hone, Nat.mul_assoc]
  rw [hmul, hone, Nat.mul_comm (Nat.pow 2 j)]
  rcases Nat.lt_trichotomy (c * Nat.pow 2 j) d with hlt | heq | hgt
  · rw [compare_lt_iff_lt.mpr hlt, compare_lt_iff_lt]
    have hle : d ≤ Nat.pow 2 53 := hd.trans (by decide)
    exact Nat.mul_lt_mul_of_pos_right (roundedUnits_lt_two_pow hlt hle he) hplace
  · rw [compare_eq_iff_eq.mpr heq, compare_eq_iff_eq, heq, roundedUnits_two_pow hpos]
  · rw [compare_gt_iff_gt.mpr hgt, compare_gt_iff_gt]
    exact Nat.mul_lt_mul_of_pos_right
      (two_pow_lt_roundedUnits hpos hgt hd (by omega)) hplace

/-- A proper fraction stays below one. -/
theorem fraction_lt_one (hcd : c < d) (hd : d ≤ Nat.pow 2 52) :
    roundedUnits (c * unitsInOne) d < unitsInOne := by
  have hcompare := compare_fraction (c := c) (j := 0) (Nat.zero_lt_of_lt hcd) hd (by omega)
  have hlt : compare (c * Nat.pow 2 0) d = .lt := compare_lt_iff_lt.mpr (by simpa using hcd)
  rw [hlt, compare_lt_iff_lt] at hcompare
  simpa using hcompare

end Fractions

/-! ## Natural numbers -/

theorem roundedUnits_nat (hn : n ≤ Nat.pow 2 53) :
    roundedUnits (n * unitsInOne) 1 = n * unitsInOne := by
  obtain ⟨k, -, hone⟩ := Finite64.unitsInOne_eq
  rw [hone]
  rcases Nat.lt_or_eq_of_le hn with hlt | rfl
  · simpa using roundedUnits_exact (e := k) Nat.one_pos hlt
  · have hpow : Nat.pow 2 53 * Nat.pow 2 k = Nat.pow 2 (53 + k) := (Nat.pow_add 2 53 k).symm
    have hexact := roundedUnits_two_pow (e := 53 + k) Nat.one_pos
    rwa [Nat.one_mul, ← hpow] at hexact

theorem nat_lt_unitsLimit (hn : n ≤ Nat.pow 2 53) : n * unitsInOne < unitsLimit := by
  obtain ⟨k, hk, hone⟩ := Finite64.unitsInOne_eq
  obtain ⟨top, htop⟩ : ∃ top, top = 2045 := ⟨_, rfl⟩
  have hpow : Nat.pow 2 k < Nat.pow 2 top := Nat.pow_lt_pow_right (by decide) (by omega)
  rw [hone, unitsLimit, ← htop]
  exact Nat.mul_lt_mul_of_le_of_lt hn hpow (by decide)

/-- A quotient that is rounded to no more than a natural number is finite. -/
theorem exists_ofUnitRatio_eq {a : Nat} (hn : n ≤ Nat.pow 2 53)
    (ha : roundedUnits a d ≤ n * unitsInOne) :
    ∃ x : Finite64, ofUnitRatio false a d = .finite x ∧ x.negative = false ∧
      x.units = roundedUnits a d := by
  rcases ofUnitRatio_spec false a d with ⟨x, hx, hneg, hunits, -⟩ | ⟨-, hlimit⟩
  · exact ⟨x, hx, hneg, hunits⟩
  · exact absurd (hlimit.trans ha) (Nat.not_le_of_lt (nat_lt_unitsLimit hn))

/-- A natural number up to `2 ^ 53` is kept. -/
theorem exists_ofNat_eq (hn : n ≤ Nat.pow 2 53) :
    ∃ x : Finite64, ofNat n = .finite x ∧ x.negative = false ∧ x.units = n * unitsInOne := by
  have hexact := roundedUnits_nat hn
  obtain ⟨x, hx, hneg, hunits⟩ := exists_ofUnitRatio_eq hn hexact.le
  exact ⟨x, hx, hneg, hunits.trans hexact⟩

/-- The ceiling of a number that is more than `n - 1` and no more than `n`. -/
theorem ceil_eq_ofNat {x : Finite64} (hneg : x.negative = false)
    (hlow : n * unitsInOne < x.units + unitsInOne) (hhigh : x.units ≤ n * unitsInOne) :
    ceil (.finite x) = ofNat n := by
  have hpos := Finite64.unitsInOne_pos
  have hquotient : (x.units + (unitsInOne - 1)) / unitsInOne = n := by
    refine Nat.div_eq_of_lt_le ?_ ?_
    · omega
    · rw [Nat.add_mul, Nat.one_mul]
      omega
  simp only [ceil, hneg, Bool.false_eq_true, if_false, hquotient]
  rfl

/-! ## A fraction added to a natural number -/

/-- Whether the fraction `c / d` is lost when it is added to `w`: it is less than half of the gap
between `w` and the next number, or exactly a half behind an even significand. The gap behind zero,
taken for that behind one, is too small for any fraction of use to be lost. -/
def Absorbs (w c d : Nat) : Prop :=
  c * Nat.pow 2 (53 - w.log2) < d ∨
    c * Nat.pow 2 (53 - w.log2) = d ∧ w * Nat.pow 2 (52 - w.log2) % 2 = 0

instance (w c d : Nat) : Decidable (Absorbs w c d) :=
  inferInstanceAs (Decidable (_ ∨ _))

variable {w y : Nat}

/-- A sum in the binade of a significand is rounded back to it before the middle of its gap. -/
theorem roundedUnits_significand_add_eq_iff {t : Nat} (hm : Nat.pow 2 52 ≤ m)
    (hsum : m * Nat.pow 2 t + y < Nat.pow 2 53 * Nat.pow 2 t) :
    roundedUnits (m * Nat.pow 2 t + y) 1 = m * Nat.pow 2 t ↔
      2 * y < Nat.pow 2 t ∨ 2 * y = Nat.pow 2 t ∧ m % 2 = 0 := by
  have hgap : 0 < Nat.pow 2 t := Nat.two_pow_pos t
  have hshift : roundingShift (m * Nat.pow 2 t + y) 1 = t := by
    refine shift_eq Nat.one_pos ?_ (.inr ?_)
    · rw [Nat.mul_one]
      exact hsum.trans_eq (Nat.pow_add 2 53 t).symm
    · have hle := Nat.mul_le_mul_right (Nat.pow 2 t) hm
      rw [Nat.mul_one]
      exact (Nat.pow_add 2 52 t).le.trans (hle.trans (Nat.le_add_right _ y))
  rw [roundedUnits, roundedPart, hshift, Nat.one_mul, ← roundHalfEven_add_eq_iff m hgap]
  exact Nat.mul_left_inj hgap.ne'

/-- A natural number is a significand of 53 bits, `k` places below the binary point. -/
theorem exists_significand (hpos : 0 < w) (hw : w < Nat.pow 2 53) :
    ∃ k, 53 - w.log2 = k + 1 ∧ 52 - w.log2 = k ∧ Nat.pow 2 52 ≤ w * Nat.pow 2 k ∧
      (w + 1) * Nat.pow 2 k ≤ Nat.pow 2 53 := by
  have hself : 2 ^ w.log2 ≤ w := Nat.log2_self_le hpos.ne'
  have hnext : w + 1 ≤ 2 ^ (w.log2 + 1) := Nat.lt_log2_self
  have hlog : w.log2 < 53 := (Nat.log2_lt hpos.ne').mpr hw
  generalize w.log2 = l at hself hnext hlog ⊢
  obtain ⟨k, hk⟩ : ∃ k, 52 = l + k := ⟨52 - l, by omega⟩
  have hfull : 2 ^ l * Nat.pow 2 k = Nat.pow 2 52 := by
    rw [hk]
    exact (Nat.pow_add 2 l k).symm
  refine ⟨k, by omega, by omega, ?_, ?_⟩
  · rw [← hfull]
    exact Nat.mul_le_mul_right _ hself
  · calc (w + 1) * Nat.pow 2 k ≤ 2 ^ (l + 1) * Nat.pow 2 k := Nat.mul_le_mul_right _ hnext
      _ = 2 * (2 ^ l * Nat.pow 2 k) := by rw [Nat.pow_succ', Nat.mul_assoc]
      _ = Nat.pow 2 53 := by rw [hfull]

/-- A sum is rounded back to a natural number if less than half of the gap behind it is added. -/
theorem roundedUnits_nat_add_eq_iff (hpos : 0 < w) (hw : w < Nat.pow 2 53) (hy : y < unitsInOne) :
    roundedUnits (w * unitsInOne + y) 1 = w * unitsInOne ↔ Absorbs w y unitsInOne := by
  obtain ⟨k, hhalf, hk, hlow, hhigh⟩ := exists_significand hpos hw
  obtain ⟨t, -, hone⟩ := exists_unitsInOne_eq (j := k) (by omega)
  rw [Absorbs, hhalf, hk]
  generalize unitsInOne = one at hone hy ⊢
  -- The gap behind `w` is `2 ^ t`.
  have hmul : w * one = w * Nat.pow 2 k * Nat.pow 2 t := by rw [hone, Nat.mul_assoc]
  have hsum : w * Nat.pow 2 k * Nat.pow 2 t + y < Nat.pow 2 53 * Nat.pow 2 t := by
    calc w * Nat.pow 2 k * Nat.pow 2 t + y < w * one + one := by
          rw [← hmul]
          exact Nat.add_lt_add_left hy _
      _ = (w + 1) * Nat.pow 2 k * Nat.pow 2 t := by
          rw [hone]
          ring
      _ ≤ Nat.pow 2 53 * Nat.pow 2 t := Nat.mul_le_mul_right _ hhigh
  have hpart : y * Nat.pow 2 (k + 1) = Nat.pow 2 k * (2 * y) := by
    have htwice : Nat.pow 2 (k + 1) = 2 * Nat.pow 2 k := Nat.pow_succ'
    rw [htwice]
    ring
  have hplaces : 0 < Nat.pow 2 k := Nat.two_pow_pos k
  rw [hmul, roundedUnits_significand_add_eq_iff hlow hsum, hpart, hone,
    Nat.mul_lt_mul_left hplaces, Nat.mul_right_inj hplaces.ne']

/-- Zero absorbs no fraction. -/
theorem absorbs_zero_iff (hpos : 0 < d) (hd : d ≤ Nat.pow 2 52) : Absorbs 0 c d ↔ c = 0 := by
  have hlog : Nat.log2 0 = 0 := Nat.log2_zero
  rw [Absorbs, hlog]
  simp only [Nat.pow_eq] at hd ⊢
  omega

/-- A smaller fraction is lost as well. -/
theorem Absorbs.of_le {c' : Nat} (h : Absorbs w c d) (hle : c' ≤ c) : Absorbs w c' d := by
  have hmul : c' * Nat.pow 2 (53 - w.log2) ≤ c * Nat.pow 2 (53 - w.log2) :=
    Nat.mul_le_mul_right _ hle
  rcases h with hlt | ⟨heq, heven⟩
  · exact .inl (hmul.trans_lt hlt)
  · rcases Nat.lt_or_eq_of_le (hmul.trans_eq heq) with hlt | heq'
    · exact .inl hlt
    · exact .inr ⟨heq', heven⟩

theorem absorbs_zero_fraction (hpos : 0 < d) : Absorbs w 0 d :=
  .inl (by rwa [Nat.zero_mul])

/-- No fraction is lost whose denominator stays below the inverse of half the gap. -/
theorem not_absorbs_of_lt (hc : 0 < c) (hd : d < Nat.pow 2 (53 - w.log2)) : ¬ Absorbs w c d := by
  have hle : Nat.pow 2 (53 - w.log2) ≤ c * Nat.pow 2 (53 - w.log2) := Nat.le_mul_of_pos_left _ hc
  rintro (hlt | ⟨heq, -⟩) <;> omega

/-- Rounding a proper fraction does not change whether it is lost. -/
theorem absorbs_fraction_iff (hcd : c < d) (hd : d ≤ Nat.pow 2 52) :
    Absorbs w (roundedUnits (c * unitsInOne) d) unitsInOne ↔ Absorbs w c d := by
  have hpos : 0 < d := Nat.zero_lt_of_lt hcd
  have hcompare := compare_fraction (c := c) (j := 53 - w.log2) hpos hd (by omega)
  have hlt := congrArg (· = Ordering.lt) hcompare
  have heq := congrArg (· = Ordering.eq) hcompare
  simp only [compare_lt_iff_lt, compare_eq_iff_eq] at hlt heq
  rw [Absorbs, Absorbs, hlt, heq]

/-- The sum of a natural number and a proper fraction is rounded to that number if the fraction is
lost. -/
theorem roundedUnits_add_fraction_eq_iff (hw : w < Nat.pow 2 53) (hcd : c < d)
    (hd : d ≤ Nat.pow 2 52) :
    roundedUnits (w * unitsInOne + roundedUnits (c * unitsInOne) d) 1 = w * unitsInOne ↔
      Absorbs w c d := by
  have hfraction := fraction_lt_one hcd hd
  rcases Nat.eq_zero_or_pos w with rfl | hpos
  · have hd' := Nat.zero_lt_of_lt hcd
    rw [Nat.zero_mul, Nat.zero_add, roundedUnits_one_eq_zero_iff, absorbs_zero_iff hd' hd]
    constructor
    · intro hzero
      have habsorbs : Absorbs 0 (roundedUnits (c * unitsInOne) d) unitsInOne := by
        rw [hzero]
        exact .inl (by simpa using Finite64.unitsInOne_pos)
      rwa [absorbs_fraction_iff hcd hd, absorbs_zero_iff hd' hd] at habsorbs
    · rintro rfl
      rw [Nat.zero_mul, roundedUnits_zero hd']
  · rw [roundedUnits_nat_add_eq_iff hpos hw hfraction, absorbs_fraction_iff hcd hd]

/-- The ceiling of the sum of a natural number and a proper fraction is the next natural number,
unless the fraction is lost. -/
theorem ceil_add_fraction (hw : w < Nat.pow 2 53) (hcd : c < d) (hd : d ≤ Nat.pow 2 52) :
    ((ofNat w).add (ofRatio false c d)).ceil = ofNat (if Absorbs w c d then w else w + 1) := by
  have hfraction := fraction_lt_one hcd hd
  obtain ⟨x, hx, hxneg, hxunits⟩ := exists_ofNat_eq hw.le
  obtain ⟨y, hy, hyneg, hyunits⟩ := exists_ofUnitRatio_eq (a := c * unitsInOne) (d := d) (n := 1)
    (by decide) (by omega)
  have hlow : w * unitsInOne ≤ roundedUnits (w * unitsInOne + y.units) 1 := by
    conv_lhs => rw [← roundedUnits_nat hw.le]
    exact roundedUnits_mono (Nat.le_add_right _ _) 1
  have hhigh : roundedUnits (w * unitsInOne + y.units) 1 ≤ (w + 1) * unitsInOne := by
    conv_rhs => rw [← roundedUnits_nat (Nat.succ_le_of_lt hw)]
    refine roundedUnits_mono ?_ 1
    rw [Nat.succ_mul]
    omega
  obtain ⟨z, hz, hzneg, hzunits⟩ := exists_ofUnitRatio_eq hw hhigh
  have hlost := roundedUnits_add_fraction_eq_iff hw hcd hd
  rw [← hyunits, ← hzunits] at hlost
  rw [← hzunits] at hlow hhigh
  rw [ofRatio, hx, hy, add_of_unsigned hxneg hyneg, hxunits, hz]
  have hone := Finite64.unitsInOne_pos
  split_ifs with habsorbs
  · have hsame := hlost.mpr habsorbs
    exact ceil_eq_ofNat hzneg (by omega) (by omega)
  · have hne := mt hlost.mp habsorbs
    refine ceil_eq_ofNat hzneg ?_ hhigh
    rw [Nat.add_mul, Nat.one_mul]
    omega

/-! ## Integers -/

/-- The number nearest to an integer. -/
def ofInt : Int → Binary64
  | .ofNat n => ofNat n
  | .negSucc n => (ofNat (n + 1)).neg

theorem ofInt_neg_ofNat (hn : 0 < n) : ofInt (-n) = (ofNat n).neg := by
  obtain ⟨k, rfl⟩ := Nat.exists_eq_succ_of_ne_zero hn.ne'
  rfl

variable {s s' : Int}

/-- An integer up to `2 ^ 53` is kept. -/
theorem exists_ofInt_eq (hs : s.natAbs ≤ Nat.pow 2 53) :
    ∃ x : Finite64, ofInt s = .finite x ∧ x.scaled = s * unitsInOne := by
  cases s with
  | ofNat n =>
    obtain ⟨x, hx, hneg, hunits⟩ := exists_ofNat_eq (n := n) hs
    refine ⟨x, hx, ?_⟩
    rw [Finite64.scaled, hneg, hunits, if_neg Bool.false_ne_true]
    exact Int.natCast_mul n unitsInOne
  | negSucc n =>
    obtain ⟨x, hx, hneg, hunits⟩ := exists_ofNat_eq (n := n + 1) hs
    refine ⟨{ x with negative := !x.negative }, ?_, ?_⟩
    · rw [ofInt, hx, neg]
    · have hflipped : ({ x with negative := !x.negative } : Finite64).scaled = -x.units := by
        simp [Finite64.scaled, Finite64.units, hneg]
      rw [hflipped, hunits, Int.negSucc_eq]
      push_cast
      ring

/-- Integers up to `2 ^ 53` keep their order. -/
theorem ofInt_le_ofInt_iff (hs : s.natAbs ≤ Nat.pow 2 53) (hs' : s'.natAbs ≤ Nat.pow 2 53) :
    (ofInt s).le (ofInt s') = true ↔ s ≤ s' := by
  obtain ⟨x, hx, hscaled⟩ := exists_ofInt_eq hs
  obtain ⟨x', hx', hscaled'⟩ := exists_ofInt_eq hs'
  have hone : (0 : Int) < unitsInOne := by exact_mod_cast Finite64.unitsInOne_pos
  rw [hx, hx', le, hscaled, hscaled', decide_eq_true_iff]
  exact mul_le_mul_iff_left₀ hone

/-- Integers up to `2 ^ 53` are told apart. -/
theorem ofInt_inj (hs : s.natAbs ≤ Nat.pow 2 53) (hs' : s'.natAbs ≤ Nat.pow 2 53) :
    ofInt s = ofInt s' ↔ s = s' := by
  refine ⟨fun h => le_antisymm ?_ ?_, fun h => by rw [h]⟩
  · rw [← ofInt_le_ofInt_iff hs hs', h, ofInt_le_ofInt_iff hs' hs']
  · rw [← ofInt_le_ofInt_iff hs' hs, h, ofInt_le_ofInt_iff hs' hs']

end Binary64

end NodeScrape
