import NodeScrape.Proofs.Binary64.Integers
import NodeScrape.Time.WallClock

/-!
# Seconds since the epoch

From the epoch on, the whole seconds are told. Before it, the distance from the epoch is rounded to
a number before its ceiling is taken, so the fraction of a second is lost if the whole seconds
absorb it: the time is then told one second late. The order of times is kept all the same, and no
fraction is lost within `2 ^ 24` seconds of the epoch.
-/

namespace NodeScrape

namespace Duration

variable {d d' : Duration}

/-- Whether a duration has a fraction that its whole seconds absorb. -/
def LosesFraction (d : Duration) : Prop :=
  0 < subsecond d ∧ Binary64.Absorbs (seconds d) (subsecond d) perSecond

instance (d : Duration) : Decidable (LosesFraction d) :=
  inferInstanceAs (Decidable (_ ∧ _))

/-- The seconds rounded up, unless the fraction is lost. -/
def ceiledSeconds (d : Duration) : Nat :=
  if 0 < subsecond d ∧ ¬ LosesFraction d then seconds d + 1 else seconds d

/-- The ceiling of a duration in seconds. -/
theorem ceil_toSeconds (hd : seconds d < Nat.pow 2 53) :
    (toSeconds d).ceil = .ofNat (ceiledSeconds d) := by
  have hproper : subsecond d < perSecond := Nat.mod_lt d (by decide)
  rw [toSeconds, Binary64.ceil_add_fraction hd hproper (by decide), ceiledSeconds]
  congr 1
  rcases Nat.eq_zero_or_pos (subsecond d) with hzero | hpos
  · rw [hzero, if_pos (Binary64.absorbs_zero_fraction (by decide)), if_neg (by simp)]
  · simp only [LosesFraction, hpos, true_and, ite_not]

/-- Within `2 ^ 24` seconds no fraction is lost. -/
theorem LosesFraction.le_seconds (h : LosesFraction d) : Nat.pow 2 24 ≤ seconds d := by
  obtain ⟨hpos, habsorbs⟩ := h
  by_contra hless
  have hlog : (seconds d).log2 < 24 := by
    by_cases hzero : seconds d = 0
    · rw [hzero]
      decide
    · exact (Nat.log2_lt hzero).mpr (Nat.lt_of_not_le hless)
  have hbits : perSecond < Nat.pow 2 30 := by decide
  have hgap : Nat.pow 2 30 ≤ Nat.pow 2 (53 - (seconds d).log2) :=
    Nat.pow_le_pow_right (by decide) (by omega)
  exact Binary64.not_absorbs_of_lt hpos (hbits.trans_le hgap) habsorbs

/-- With the same whole seconds, a smaller fraction is lost as well. -/
theorem LosesFraction.of_le (h : LosesFraction d) (hseconds : seconds d' = seconds d)
    (hpos : 0 < subsecond d') (hle : subsecond d' ≤ subsecond d) : LosesFraction d' :=
  ⟨hpos, by rw [hseconds]; exact h.2.of_le hle⟩

end Duration

namespace WallTime

variable {t t' : Int}

/-- Whether the fraction of a second of a time before the epoch is lost. -/
def FractionLost (t : Int) : Prop := t < 0 ∧ Duration.LosesFraction t.natAbs

instance (t : Int) : Decidable (FractionLost t) :=
  inferInstanceAs (Decidable (_ ∧ _))

/-- The whole seconds since the epoch, rounded down. -/
def floorSeconds (t : Int) : Int := t / Duration.perSecond

/-- The whole seconds that are told of a time. -/
def toldSeconds (t : Int) : Int :=
  if FractionLost t then floorSeconds t + 1 else floorSeconds t

/-- Before the epoch a whole distance is the floor, and a further fraction lowers it by one. -/
theorem floorSeconds_of_neg (ht : t < 0) :
    (floorSeconds t = -(Duration.seconds t.natAbs : Int) ∧ 0 < Duration.seconds t.natAbs ∧
        Duration.subsecond t.natAbs = 0) ∨
      (floorSeconds t + 1 = -(Duration.seconds t.natAbs : Int) ∧
        0 < Duration.subsecond t.natAbs) := by
  simp only [floorSeconds, Duration.seconds, Duration.subsecond, Duration.perSecond]
  omega

/-- Before the epoch the distance is told with a sign, and never as zero. -/
theorem toldSeconds_of_neg (ht : t < 0) :
    toldSeconds t = -(Duration.ceiledSeconds t.natAbs : Int) ∧
      0 < Duration.ceiledSeconds t.natAbs := by
  rw [toldSeconds, Duration.ceiledSeconds]
  rcases floorSeconds_of_neg ht with ⟨hfloor, hpos, hzero⟩ | ⟨hfloor, hpos⟩
  · have hkept : ¬ FractionLost t := fun hlost => hlost.2.1.ne' hzero
    rw [if_neg hkept, if_neg (fun h => h.1.ne' hzero)]
    exact ⟨hfloor, hpos⟩
  · by_cases hlost : Duration.LosesFraction t.natAbs
    · have hleast : Nat.pow 2 24 ≤ Duration.seconds t.natAbs := hlost.le_seconds
      rw [if_pos ⟨ht, hlost⟩, if_neg (fun h => h.2 hlost)]
      exact ⟨hfloor, Nat.lt_of_lt_of_le (by decide) hleast⟩
    · rw [if_neg (fun h => hlost h.2), if_pos ⟨hpos, hlost⟩]
      omega

/-- A time is told as its whole seconds, one too many if the fraction is lost. -/
theorem unixSeconds_eq (ht : (floorSeconds t).natAbs < Nat.pow 2 53) :
    unixSeconds t = .ofInt (toldSeconds t) := by
  rcases lt_or_ge t 0 with hneg | hnonneg
  · have hdistance : Duration.seconds t.natAbs < Nat.pow 2 53 := by
      generalize Nat.pow 2 53 = bound at ht ⊢
      rcases floorSeconds_of_neg hneg with ⟨hfloor, -⟩ | ⟨hfloor, -⟩ <;> omega
    obtain ⟨htold, hpos⟩ := toldSeconds_of_neg hneg
    rw [unixSeconds, if_neg (Int.not_le.mpr hneg), Duration.ceil_toSeconds hdistance, htold,
      Binary64.ofInt_neg_ofNat hpos]
  · have hkept : ¬ FractionLost t := fun hlost => Int.not_lt.mpr hnonneg hlost.1
    rw [unixSeconds, if_pos hnonneg, toldSeconds, if_neg hkept]
    obtain ⟨n, rfl⟩ := Int.eq_ofNat_of_zero_le hnonneg
    rfl

/-- A later time is not told as an earlier second. -/
theorem toldSeconds_mono (h : t ≤ t') : toldSeconds t ≤ toldSeconds t' := by
  have hfloor : floorSeconds t ≤ floorSeconds t' := Int.ediv_le_ediv (by decide) h
  rcases Int.lt_or_eq_of_le hfloor with hlt | heq
  · simp only [toldSeconds]
    split_ifs <;> omega
  · -- Within one second before the epoch the fraction of the distance shrinks.
    have hlost : FractionLost t → FractionLost t' := by
      rintro ⟨hneg, hloses⟩
      have hpos := hloses.1
      have hsame : Duration.seconds t'.natAbs = Duration.seconds t.natAbs ∧
          0 < Duration.subsecond t'.natAbs ∧
          Duration.subsecond t'.natAbs ≤ Duration.subsecond t.natAbs ∧ t' < 0 := by
        simp only [floorSeconds, Duration.seconds, Duration.subsecond, Duration.perSecond]
          at heq hpos ⊢
        omega
      obtain ⟨hseconds, hpos', hle, hneg'⟩ := hsame
      exact ⟨hneg', hloses.of_le hseconds hpos' hle⟩
    simp only [toldSeconds, heq]
    split_ifs with hold hnew
    · exact le_refl _
    · exact absurd (hlost hold) hnew
    · omega
    · exact le_refl _

theorem natAbs_toldSeconds_le (ht : (floorSeconds t).natAbs < Nat.pow 2 53) :
    (toldSeconds t).natAbs ≤ Nat.pow 2 53 := by
  generalize Nat.pow 2 53 = bound at ht ⊢
  rw [toldSeconds]
  split_ifs <;> omega

/-- A later time is not told as an earlier number of seconds. -/
theorem unixSeconds_le_unixSeconds (ht : (floorSeconds t).natAbs < Nat.pow 2 53)
    (ht' : (floorSeconds t').natAbs < Nat.pow 2 53) (h : t ≤ t') :
    (unixSeconds t).le (unixSeconds t') = true := by
  rw [unixSeconds_eq ht, unixSeconds_eq ht', Binary64.ofInt_le_ofInt_iff
    (natAbs_toldSeconds_le ht) (natAbs_toldSeconds_le ht')]
  exact toldSeconds_mono h

/-- A time given by parts lies in its second. -/
theorem floorSeconds_ofParts (s : Int) {n : Nat} (hn : n < Duration.perSecond) :
    floorSeconds (ofParts s n) = s := by
  simp only [floorSeconds, ofParts, Duration.perSecond] at hn ⊢
  omega

section Parts

variable {s : Int} {n : Nat}

/-- For a time whose second is kept as a number, that second is told unless the time lies before the
epoch and its fraction is lost; then the next second is told. Later times are never told as earlier
seconds. -/
theorem unixSeconds_floors_unless_lost (hs : s.natAbs < Nat.pow 2 53)
    (hn : n < Duration.perSecond) :
    (unixSeconds (ofParts s n) = .ofInt s ↔ ¬ FractionLost (ofParts s n)) ∧
      (FractionLost (ofParts s n) → unixSeconds (ofParts s n) = .ofInt (s + 1)) ∧
      ∀ (s' : Int) (n' : Nat), s'.natAbs < Nat.pow 2 53 → n' < Duration.perSecond →
        ofParts s n ≤ ofParts s' n' →
        (unixSeconds (ofParts s n)).le (unixSeconds (ofParts s' n')) = true := by
  have hfloor := floorSeconds_ofParts s hn
  have hbound : (floorSeconds (ofParts s n)).natAbs < Nat.pow 2 53 := by rwa [hfloor]
  have htold := unixSeconds_eq hbound
  refine ⟨?_, ?_, ?_⟩
  · rw [htold, Binary64.ofInt_inj (natAbs_toldSeconds_le hbound) hs.le, toldSeconds, hfloor]
    split_ifs with hlost
    · simp [hlost]
    · simp [hlost]
  · intro hlost
    rw [htold, toldSeconds, if_pos hlost, hfloor]
  · intro s' n' hs' hn' hle
    have hbound' : (floorSeconds (ofParts s' n')).natAbs < Nat.pow 2 53 := by
      rwa [floorSeconds_ofParts s' hn']
    exact unixSeconds_le_unixSeconds hbound hbound' hle

/-- A second and a half before the epoch nothing is lost, and in the first second that loses any
fraction the last nanosecond is. -/
theorem unixSeconds_floors_unless_lost_before :
    unixSeconds (ofParts (-2) 500000000) = .ofInt (-2) ∧
      unixSeconds (ofParts (-16777217) 999999999) = .ofInt (-16777216) ∧
      (unixSeconds (ofParts (-16777217) 999999999)).le (unixSeconds (ofParts (-2) 500000000)) =
        true := by
  have hkept := unixSeconds_floors_unless_lost (s := -2) (n := 500000000) (by decide) (by decide)
  have hlost := unixSeconds_floors_unless_lost (s := -16777217) (n := 999999999) (by decide)
    (by decide)
  exact ⟨hkept.1.mpr (by decide), hlost.2.1 (by decide),
    hlost.2.2 (-2) 500000000 (by decide) (by decide) (by decide)⟩

/-- One nanosecond before the second `-2 ^ 24` that second is told already. -/
theorem last_nanosecond_lost :
    unixSeconds (ofParts (-16777217) 999999999) ≠ .ofInt (-16777217) ∧
      unixSeconds (ofParts (-16777217) 999999999) = .ofInt (-16777216) := by
  decide +kernel

end Parts

end WallTime

end NodeScrape
