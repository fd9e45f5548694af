import Mathlib.Data.Option.Basic
import NodeScrape.Proofs.Text.Digits
import NodeScrape.Time.Rfc3339

/-!
# Points in time read back

The lenient reader of dates and times reads the text that a point in time is written as, and finds
that same point: in years of any length and sign, with every fraction of a second, and within leap
seconds.
-/

namespace NodeScrape.Rfc3339

open Text Timestamp

variable {c : Char} {digits rest : List Char} {width n : Nat}

/-- The value of digits is that of the standard library. -/
theorem natOf_eq (digits : List Char) : natOf digits = Nat.ofDigitChars 10 digits 0 := by
  rw [natOf, Nat.ofDigitChars_eq_foldl]
  congr
  funext n c
  rw [Nat.mul_comm]

@[simp] theorem natOf_padded (width n : Nat) : natOf (padded width n) = n := by
  rw [natOf_eq, ofDigitChars_padded]

/-- No digit is white space. -/
theorem isBlank_eq_false_of_isDigit (hdigit : c.isDigit = true) : isBlank c = false := by
  have hlow : 48 ≤ c.toNat := (Char.isDigit_iff_toNat.mp hdigit).1
  have hhigh : c.toNat ≤ 57 := (Char.isDigit_iff_toNat.mp hdigit).2
  simp only [isBlank, Bool.or_eq_false_iff, Bool.and_eq_false_iff, decide_eq_false_iff_not]
  omega

theorem trimLeft_of_isBlank (hblank : isBlank c = false) (rest : List Char) :
    trimLeft (c :: rest) = c :: rest :=
  List.dropWhile_cons_of_neg (by simp [hblank])

/-- A text that begins with digits has nothing to trim. -/
theorem trimLeft_padded (width n : Nat) (rest : List Char) :
    trimLeft (padded width n ++ rest) = padded width n ++ rest := by
  obtain ⟨c, digits, hc⟩ := List.exists_cons_of_ne_nil (padded_ne_nil width n)
  have hmem : c ∈ padded width n := hc ▸ List.mem_cons_self
  rw [hc, List.cons_append]
  exact trimLeft_of_isBlank (isBlank_eq_false_of_isDigit (isDigit_padded c hmem)) _

/-- Digits are read to their end if the width allows it. -/
theorem digitRun_append (hdigits : ∀ c ∈ digits, c.isDigit = true) (hne : digits ≠ [])
    (hlength : digits.length ≤ width) (hrest : EndsDigits (rest.take (width - digits.length))) :
    digitRun width (digits ++ rest) = some (digits, rest) := by
  have hrun : ((digits ++ rest).take width).takeWhile Char.isDigit = digits := by
    rw [List.take_append, List.take_of_length_le hlength]
    exact takeWhile_isDigit_append hdigits hrest
  have hsome : digits.isEmpty = false := by simpa using hne
  simp only [digitRun, hrun, hsome, Bool.false_eq_true, if_false, List.drop_left]

/-- Digits that fill the width are read, whatever follows. -/
theorem digitRun_padded (hwidth : 0 < width) (hn : n < 10 ^ width) (rest : List Char) :
    digitRun width (padded width n ++ rest) = some (padded width n, rest) := by
  have hlength : (padded width n).length = width := length_padded hwidth hn
  refine digitRun_append isDigit_padded (padded_ne_nil width n) (Nat.le_of_eq hlength) ?_
  rw [hlength, Nat.sub_self, List.take_zero]
  exact endsDigits_nil

/-- Two digits are a number below a hundred. -/
theorem shortNumber_padded (hn : n < 100) (rest : List Char) :
    shortNumber (padded 2 n ++ rest) = some (n, rest) := by
  have hread := digitRun_padded (by decide) (show n < 10 ^ 2 from hn) rest
  simp [shortNumber, trimLeft_padded, hread]

theorem separator_cons (hblank : isBlank c = false) (rest : List Char) :
    separator c (c :: rest) = some ((), rest) := by
  simp [separator, trimLeft_of_isBlank hblank, scanChar]

/-! ## The year -/

/-- Behind a sign, a number of any length is read to its last digit. -/
theorem digitRun_signed (hrest : EndsDigits rest) :
    digitRun (padded width n ++ rest).length (padded width n ++ rest) =
      some (padded width n, rest) := by
  refine digitRun_append isDigit_padded (padded_ne_nil width n) (by simp) ?_
  rwa [List.length_append, Nat.add_sub_cancel_left, List.take_length]

/-- A year that begins with a digit has at most four. -/
theorem year_of_isDigit (hdigit : c.isDigit = true) (rest : List Char) :
    year (c :: rest) = (digitRun 4 (c :: rest)).map fun p => ((natOf p.1 : Int), p.2) := by
  have hminus : c ≠ '-' := by rintro rfl; simp at hdigit
  have hplus : c ≠ '+' := by rintro rfl; simp at hdigit
  rw [year, trimLeft_of_isBlank (isBlank_eq_false_of_isDigit hdigit)]
  split
  next heq => exact absurd (List.cons.inj heq).1 hminus
  next heq => exact absurd (List.cons.inj heq).1 hplus
  next => cases digitRun 4 (c :: rest) <;> rfl

/-- A year is read back from its text, with a sign and without. -/
theorem year_yearText (y : Int) (hrest : EndsDigits rest) :
    year (yearText y ++ rest) = some (y, rest) := by
  unfold yearText
  by_cases hshort : 0 ≤ y ∧ y ≤ 9999
  · have hn : y.toNat < 10 ^ 4 := by omega
    have hread := digitRun_padded (by decide) hn rest
    have hvalue : natOf (padded 4 y.toNat) = y.toNat := natOf_padded 4 y.toNat
    have hy : (y.toNat : Int) = y := Int.toNat_of_nonneg hshort.1
    obtain ⟨c, digits, hc⟩ := List.exists_cons_of_ne_nil (padded_ne_nil 4 y.toNat)
    have hdigit : c.isDigit = true := isDigit_padded c (hc ▸ List.mem_cons_self)
    rw [if_pos hshort]
    rw [hc, List.cons_append] at hread ⊢
    rw [year_of_isDigit hdigit, hread, Option.map_some, ← hc, hvalue, hy]
  · rw [if_neg hshort]
    by_cases hneg : y < 0
    · rw [if_pos hneg, List.cons_append]
      have hvalue : -(y.natAbs : Int) = y := by omega
      simp only [year, trimLeft_of_isBlank (c := '-') rfl, digitRun_signed hrest,
        Option.bind_eq_bind, Option.bind_some, natOf_padded, hvalue]
      rfl
    · rw [if_neg hneg, List.cons_append]
      have hvalue : (y.natAbs : Int) = y := by omega
      simp only [year, trimLeft_of_isBlank (c := '+') rfl, digitRun_signed hrest,
        Option.bind_eq_bind, Option.bind_some, natOf_padded, hvalue]
      rfl

/-! ## The fraction of a second -/

/-- Up to nine digits behind a point are read in nanoseconds. -/
theorem fraction_padded (hwidth : 0 < width) (hnine : width ≤ 9) (hn : n < 10 ^ width)
    (hrest : EndsDigits rest) :
    fraction ('.' :: padded width n ++ rest) = some (n * 10 ^ (9 - width), rest) := by
  have hlength : (padded width n).length = width := length_padded hwidth hn
  have hread : digitRun 9 (padded width n ++ rest) = some (padded width n, rest) := by
    refine digitRun_append isDigit_padded (padded_ne_nil width n) (by omega) ?_
    exact hrest.take _
  have hnone : ∀ c ∈ ([] : List Char), c.isDigit = true := nofun
  have hdrop : rest.dropWhile Char.isDigit = rest := dropWhile_isDigit_append hnone hrest
  simp [fraction, hread, hlength, hdrop]

/-- Nanoseconds within a second are read back from their text. -/
theorem fraction_fractionText {nanos : Nat} (hnanos : nanos < 1000000000) (rest : List Char) :
    fraction (fractionText nanos ++ 'Z' :: rest) = some (nanos, 'Z' :: rest) := by
  have hrest : EndsDigits ('Z' :: rest) := endsDigits_cons.mpr rfl
  unfold fractionText
  by_cases hzero : nanos = 0
  · rw [if_pos hzero, List.nil_append, hzero]
    rfl
  rw [if_neg hzero]
  by_cases hmilli : nanos % 1000000 = 0
  · rw [if_pos hmilli, fraction_padded (by decide) (by decide) (by omega) hrest]
    have hwhole : nanos / 1000000 * 10 ^ (9 - 3) = nanos := by omega
    rw [hwhole]
  rw [if_neg hmilli]
  by_cases hmicro : nanos % 1000 = 0
  · rw [if_pos hmicro, fraction_padded (by decide) (by decide) (by omega) hrest]
    have hwhole : nanos / 1000 * 10 ^ (9 - 6) = nanos := by omega
    rw [hwhole]
  · rw [if_neg hmicro, fraction_padded (by decide) (by decide) (by omega) hrest]
    rw [Nat.sub_self, Nat.pow_zero, Nat.mul_one]

/-! ## The whole text -/

/-- A date is read back from its text, whatever follows. -/
theorem date_append (d : Date) (rest : List Char) :
    date (yearText d.year ++ '-' :: padded 2 d.month ++ '-' :: padded 2 d.day ++ rest) =
      some (d, rest) := by
  obtain ⟨y, month, day, hvalid⟩ := d
  have hmonth : month < 100 := by
    have := hvalid.2.2.2.1
    omega
  have hday : day < 100 := by
    have hle := hvalid.2.2.2.2.2
    have hmax : daysInMonth y month ≤ 31 := by
      unfold daysInMonth
      split
      · split <;> decide
      · split <;> decide
    omega
  have hof : Date.of? y month day = some ⟨y, month, day, hvalid⟩ := dif_pos hvalid
  have hends : EndsDigits ('-' :: (padded 2 month ++ '-' :: (padded 2 day ++ rest))) :=
    endsDigits_cons.mpr rfl
  have hyear := year_yearText y hends
  simp only [List.append_assoc, List.cons_append]
  simp only [date, hyear, Option.bind_eq_bind, Option.bind_some, separator_cons (c := '-') rfl,
    shortNumber_padded hmonth, shortNumber_padded hday, hof]
  rfl

/-- The time of day is read back, a leap second as the last second of its minute. -/
theorem timeOfDay_append (t : Timestamp) (rest : List Char) :
    timeOfDay (padded 2 (t.second / 3600) ++ ':' :: padded 2 (t.second / 60 % 60) ++
      ':' :: padded 2 (t.second % 60 + t.nanos / 1000000000) ++
      fractionText (t.nanos % 1000000000) ++ 'Z' :: rest) =
      some ((t.second, t.nanos), 'Z' :: rest) := by
  have hsecond : t.second < 86400 := t.second_lt
  have hhour : t.second / 3600 < 24 := by omega
  have hminute : t.second / 60 % 60 < 60 := by omega
  have hnanos : t.nanos % 1000000000 < 1000000000 := Nat.mod_lt _ (by decide)
  have hcases := t.fraction
  unfold IsFraction at hcases
  have hleap : t.second % 60 + t.nanos / 1000000000 ≤ 60 := by omega
  simp only [List.append_assoc, List.cons_append]
  simp only [timeOfDay, Option.bind_eq_bind, Option.bind_some, separator_cons (c := ':') rfl,
    shortNumber_padded (show t.second / 3600 < 100 by omega),
    shortNumber_padded (show t.second / 60 % 60 < 100 by omega),
    shortNumber_padded (show t.second % 60 + t.nanos / 1000000000 < 100 by omega),
    fraction_fractionText hnanos]
  have hguard : (guard (t.second / 3600 < 24 ∧ t.second / 60 % 60 < 60 ∧
      t.second % 60 + t.nanos / 1000000000 ≤ 60) : Option Unit) = some () :=
    if_pos ⟨hhour, hminute, hleap⟩
  rw [hguard]
  by_cases hsixty : t.second % 60 + t.nanos / 1000000000 = 60
  · have htime : t.second / 3600 * 3600 + t.second / 60 % 60 * 60 + 59 = t.second := by omega
    have hfraction : 1000000000 + t.nanos % 1000000000 = t.nanos := by omega
    rw [if_pos hsixty, htime, hfraction]
    rfl
  · have htime : t.second / 3600 * 3600 + t.second / 60 % 60 * 60 +
        (t.second % 60 + t.nanos / 1000000000) = t.second := by omega
    have hfraction : t.nanos % 1000000000 = t.nanos := by omega
    rw [if_neg hsixty, htime, hfraction]
    rfl

/-- Universal time is no time ahead of itself. -/
theorem offset_universal (rest : List Char) : offset ('Z' :: rest) = some (0, rest) := by
  have hutc : isUtc ('Z' :: rest) = false := by
    cases rest with
    | nil => rfl
    | cons a rest =>
      cases rest <;> rfl
  simp [offset, trimLeft_of_isBlank (c := 'Z') rfl, hutc]

/-- Without an offset a local time is the point in time itself. -/
theorem ofLocal?_zero (t : Timestamp) : ofLocal? t.date t.second t.nanos 0 = some t := by
  have hsecond : t.second < 86400 := t.second_lt
  have hnonneg : ¬ ((t.second : Int) - 0 < 0) := by omega
  have hwithin : ¬ ((secondsPerDay : Int) ≤ (t.second : Int) - 0) := by
    unfold secondsPerDay
    omega
  have hsame : (((t.second : Int) - 0) % secondsPerDay).toNat = t.second := by
    unfold secondsPerDay
    omega
  simp only [ofLocal?, if_neg hnonneg, if_neg hwithin, Option.bind_eq_bind, Option.bind_some, hsame]
  exact dif_pos ⟨t.second_lt, t.fraction⟩

/-- A point in time is read back from its text. -/
theorem parse?_text (t : Timestamp) : parse? t.text = some t := by
  have hdate := date_append t.date ('T' :: (padded 2 (t.second / 3600) ++
    ':' :: padded 2 (t.second / 60 % 60) ++ ':' :: padded 2 (t.second % 60 + t.nanos / 1000000000) ++
    fractionText (t.nanos % 1000000000) ++ ['Z']))
  have htime := timeOfDay_append t []
  have htext : t.text.toList = yearText t.date.year ++ '-' :: padded 2 t.date.month ++
      '-' :: padded 2 t.date.day ++ 'T' :: (padded 2 (t.second / 3600) ++
      ':' :: padded 2 (t.second / 60 % 60) ++ ':' :: padded 2 (t.second % 60 + t.nanos / 1000000000) ++
      fractionText (t.nanos % 1000000000) ++ ['Z']) := by
    simp only [text, chars, String.toList_ofList, List.append_assoc, List.cons_append]
  simp only [parse?, htext, hdate, htime, offset_universal, Option.bind_eq_bind, Option.bind_some]
  exact ofLocal?_zero t

end NodeScrape.Rfc3339
