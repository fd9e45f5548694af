import NodeScrape.Proofs.Binary64.Boundary
import NodeScrape.Proofs.Text.Digits
import NodeScrape.Yaml.Plain

/-!
# Numbers read back from decimal text

A decimal number is read back from its text in every layout, positional or with an exponent: the
digits and the exponent that are read have the same value as those that were written.
-/

namespace NodeScrape.Yaml

open Text

variable {c : Char} {digits rest : List Char}

/-! ## Runs of digits -/

theorem digitValue?_of_isDigit (hc : c.isDigit = true) :
    digitValue? 10 c = some (c.toNat - '0'.toNat) := by
  have hhigh : c.toNat ≤ 57 := (Char.isDigit_iff_toNat.mp hc).2
  have hzero : '0'.toNat = 48 := rfl
  simp only [digitValue?, hc, if_true]
  exact if_pos (by omega)

theorem digitValue?_of_not_isDigit (hc : c.isDigit = false) : digitValue? 10 c = none := by
  simp only [digitValue?, hc, Bool.false_eq_true, if_false]
  refine if_neg ?_
  split
  · omega
  split
  · omega
  · omega

/-- Digits are taken up to where they end. -/
theorem decimalRun_append (hdigits : ∀ c ∈ digits, c.isDigit = true) (hrest : EndsDigits rest) :
    decimalRun (digits ++ rest) = (digits.map fun c => c.toNat - '0'.toNat, rest) := by
  unfold decimalRun
  induction digits with
  | nil =>
    cases rest with
    | nil => rfl
    | cons c rest =>
      rw [List.nil_append, digitRun, digitValue?_of_not_isDigit (endsDigits_cons.mp hrest)]
      rfl
  | cons c digits ih =>
    have hread := ih fun d hd => hdigits d (List.mem_cons_of_mem _ hd)
    rw [List.cons_append, digitRun, digitValue?_of_isDigit (hdigits c List.mem_cons_self), hread]
    rfl

/-- The number that digits spell. -/
theorem numberOf_map (digits : List Char) :
    numberOf 10 (digits.map fun c => c.toNat - '0'.toNat) = Nat.ofDigitChars 10 digits 0 := by
  rw [numberOf, Nat.ofDigitChars_eq_foldl, List.foldl_map]
  congr
  funext n c
  rw [Nat.mul_comm]

/-! ## The parts of a number -/

/-- A sign is dropped, and no digit is one. -/
theorem dropSign_of_isDigit (hc : c.isDigit = true) (rest : List Char) :
    dropSign (c :: rest) = c :: rest := by
  have hminus : c ≠ '-' := by rintro rfl; simp at hc
  have hplus : c ≠ '+' := by rintro rfl; simp at hc
  unfold dropSign
  split
  next heq => exact absurd (List.cons.inj heq).1 hplus
  next heq => exact absurd (List.cons.inj heq).1 hminus
  next => rfl

/-- The sign of a number as it is written. -/
def signText (negative : Bool) : List Char := if negative then ['-'] else []

theorem dropSign_signText (negative : Bool) (hne : digits ≠ [])
    (hdigits : ∀ c ∈ digits, c.isDigit = true) (rest : List Char) :
    dropSign (signText negative ++ (digits ++ rest)) = digits ++ rest := by
  obtain ⟨c, tail, rfl⟩ := List.exists_cons_of_ne_nil hne
  cases negative with
  | true => rfl
  | false => exact dropSign_of_isDigit (hdigits c List.mem_cons_self) _

theorem head?_signText (negative : Bool) (hne : digits ≠ [])
    (hdigits : ∀ c ∈ digits, c.isDigit = true) (rest : List Char) :
    decide ((signText negative ++ (digits ++ rest)).head? = some '-') = negative := by
  obtain ⟨c, tail, rfl⟩ := List.exists_cons_of_ne_nil hne
  have hc := hdigits c List.mem_cons_self
  cases negative with
  | true => rfl
  | false =>
    have hminus : c ≠ '-' := by rintro rfl; simp at hc
    simpa [signText] using hminus

/-- Digits on both sides of a point, with an exponent. -/
theorem decimal?_point (negative : Bool) {whole fraction exponent : List Char} {e : Int}
    (hne : whole ≠ []) (hwhole : ∀ c ∈ whole, c.isDigit = true)
    (hfraction : ∀ c ∈ fraction, c.isDigit = true) (hends : EndsDigits exponent)
    (hexponent : decimalExponent? exponent = some e) :
    decimal? (signText negative ++ (whole ++ '.' :: (fraction ++ exponent))) =
      some (Binary64.ofDecimal negative (Nat.ofDigitChars 10 (whole ++ fraction) 0)
        (e - fraction.length)) := by
  have hpoint : EndsDigits ('.' :: (fraction ++ exponent)) := endsDigits_cons.mpr rfl
  have hrun := decimalRun_append hwhole hpoint
  have hfractionRun := decimalRun_append hfraction hends
  have hdrop := dropSign_signText negative hne hwhole ('.' :: (fraction ++ exponent))
  have hhead := head?_signText negative hne hwhole ('.' :: (fraction ++ exponent))
  have hsome : (whole.map fun c => c.toNat - '0'.toNat).isEmpty = false := by simpa using hne
  unfold decimal?
  rw [hdrop, hrun, hhead]
  simp only [hfractionRun, hsome, hexponent, ← List.map_append, numberOf_map, List.length_map]
  rfl

/-- Digits without a point, with an exponent. -/
theorem decimal?_whole (negative : Bool) {whole exponent : List Char} {e : Int}
    (hne : whole ≠ []) (hwhole : ∀ c ∈ whole, c.isDigit = true) (hends : EndsDigits exponent)
    (hpoint : exponent.head? ≠ some '.') (hexponent : decimalExponent? exponent = some e) :
    decimal? (signText negative ++ (whole ++ exponent)) =
      some (Binary64.ofDecimal negative (Nat.ofDigitChars 10 whole 0) e) := by
  have hrun := decimalRun_append hwhole hends
  have hdrop := dropSign_signText negative hne hwhole exponent
  have hhead := head?_signText negative hne hwhole exponent
  have hsome : (whole.map fun c => c.toNat - '0'.toNat).isEmpty = false := by simpa using hne
  unfold decimal?
  rw [hdrop, hrun, hhead]
  dsimp only
  split
  next => exact absurd rfl hpoint
  next =>
    simp only [hsome, hexponent, List.append_nil, numberOf_map]
    exact congrArg (fun places => some (Binary64.ofDecimal negative _ places)) (Int.sub_zero e)

/-! ## The exponent -/

/-- The sign of an exponent as it is written. -/
def exponentSign (exponent : Int) (plus : Bool) : List Char :=
  if exponent < 0 then ['-'] else if plus then ['+'] else []

theorem dropSign_exponentSign (exponent : Int) (plus : Bool) (hne : digits ≠ [])
    (hdigits : ∀ c ∈ digits, c.isDigit = true) :
    dropSign (exponentSign exponent plus ++ digits) = digits := by
  obtain ⟨c, tail, rfl⟩ := List.exists_cons_of_ne_nil hne
  unfold exponentSign
  split
  · rfl
  split
  · rfl
  · exact dropSign_of_isDigit (hdigits c List.mem_cons_self) tail

theorem head?_exponentSign (exponent : Int) (plus : Bool) (hne : digits ≠ [])
    (hdigits : ∀ c ∈ digits, c.isDigit = true) :
    (exponentSign exponent plus ++ digits).head? = some '-' ↔ exponent < 0 := by
  obtain ⟨c, tail, rfl⟩ := List.exists_cons_of_ne_nil hne
  have hc := hdigits c List.mem_cons_self
  have hminus : c ≠ '-' := by rintro rfl; simp at hc
  unfold exponentSign
  split
  next hneg => simp [hneg]
  split
  next hneg _ => simpa using hneg
  next hneg _ => simpa [hminus] using hneg

/-- An exponent is read back behind its letter. -/
theorem decimalExponent?_text (exponent : Int) (plus : Bool) (hne : digits ≠ [])
    (hdigits : ∀ c ∈ digits, c.isDigit = true)
    (hvalue : Nat.ofDigitChars 10 digits 0 = exponent.natAbs) :
    decimalExponent? ('e' :: (exponentSign exponent plus ++ digits)) = some exponent := by
  have hdrop := dropSign_exponentSign exponent plus hne hdigits
  have hhead := head?_exponentSign exponent plus hne hdigits
  have hrun := decimalRun_append hdigits endsDigits_nil
  rw [List.append_nil] at hrun
  have hnumber := numberOf_map digits
  rw [decimalExponent?, hdrop, hrun]
  obtain ⟨c, tail, rfl⟩ := List.exists_cons_of_ne_nil hne
  rw [List.map_cons] at hnumber ⊢
  have hsigned :
      (if exponent < 0 then -(exponent.natAbs : Int) else exponent.natAbs) = exponent := by
    split <;> omega
  simp only [hhead, hnumber, hvalue]
  exact (if_pos rfl).trans (congrArg some hsigned)

/-! ## Every layout -/

/-- A text is read as a number with the value of a decimal number, signed as told. -/
def ReadsAs (text : List Char) (d : Decimal) : Prop :=
  ∀ negative, ∃ (digits : Nat) (exponent : Int), (digits * 10 ^ exponent : ℚ) = d.toRat ∧
    decimal? (signText negative ++ text) = some (Binary64.ofDecimal negative digits exponent)

theorem isDigit_zeros (n : Nat) : ∀ c ∈ List.replicate n '0', c.isDigit = true := by
  intro c hc
  rw [List.eq_of_mem_replicate hc]
  rfl

theorem isDigit_append {front back : List Char} (hfront : ∀ c ∈ front, c.isDigit = true)
    (hback : ∀ c ∈ back, c.isDigit = true) : ∀ c ∈ front ++ back, c.isDigit = true := by
  intro c hc
  rcases List.mem_append.mp hc with hmem | hmem
  · exact hfront c hmem
  · exact hback c hmem

/-- Zeros between the point and the digits. -/
theorem readsAs_point_zeros (n k : Nat) :
    ReadsAs ('0' :: '.' :: (List.replicate k '0' ++ Nat.toDigits 10 n))
      ⟨n, -(k + (Nat.toDigits 10 n).length : Nat)⟩ := by
  intro negative
  refine ⟨n, -(k + (Nat.toDigits 10 n).length : Nat), rfl, ?_⟩
  have hzero : ∀ c ∈ ['0'], c.isDigit = true := List.forall_mem_singleton.mpr rfl
  have hread := decimal?_point negative (List.cons_ne_nil '0' []) hzero
    (isDigit_append (isDigit_zeros k) (isDigit_toDigits (n := n))) endsDigits_nil rfl
  have hlength : (0 : Int) - (List.replicate k '0' ++ Nat.toDigits 10 n).length =
      -(k + (Nat.toDigits 10 n).length : Nat) := by
    rw [List.length_append, List.length_replicate]
    omega
  have hvalue :
      Nat.ofDigitChars 10 (['0'] ++ (List.replicate k '0' ++ Nat.toDigits 10 n)) 0 = n := by
    rw [Nat.ofDigitChars_append, Nat.ofDigitChars_append, Nat.ofDigitChars_replicate_zero]
    exact Nat.ofDigitChars_ten_toDigits
  rw [hlength, hvalue, List.append_nil] at hread
  exact hread

/-- Zeros between the digits and the point, and one behind it. -/
theorem readsAs_zeros_point (n k : Nat) :
    ReadsAs (Nat.toDigits 10 n ++ List.replicate k '0' ++ ['.', '0']) ⟨n, k⟩ := by
  intro negative
  refine ⟨n * 10 ^ k * 10, -1, ?_, ?_⟩
  · rw [Decimal.toRat, zpow_natCast, zpow_neg_one]
    push_cast
    field_simp
  · have hzero : ∀ c ∈ ['0'], c.isDigit = true := List.forall_mem_singleton.mpr rfl
    have hwhole := isDigit_append (isDigit_toDigits (n := n)) (isDigit_zeros k)
    have hne : Nat.toDigits 10 n ++ List.replicate k '0' ≠ [] :=
      List.append_ne_nil_of_left_ne_nil Nat.toDigits_ne_nil _
    have hread := decimal?_point negative hne hwhole hzero endsDigits_nil rfl
    have hvalue : Nat.ofDigitChars 10 (Nat.toDigits 10 n ++ List.replicate k '0' ++ ['0']) 0 =
        n * 10 ^ k * 10 := by
      rw [Nat.ofDigitChars_append, Nat.ofDigitChars_append, Nat.ofDigitChars_ten_toDigits,
        Nat.ofDigitChars_replicate_zero, Nat.mul_comm (10 ^ k) n]
      exact Nat.mul_comm 10 (n * 10 ^ k)
    rw [hvalue] at hread
    exact hread

/-- A point between two digits. -/
theorem readsAs_digits_point {n place : Nat} (hpos : 0 < place)
    (hplace : place < (Nat.toDigits 10 n).length) :
    ReadsAs ((Nat.toDigits 10 n).take place ++ '.' :: (Nat.toDigits 10 n).drop place)
      ⟨n, place - (Nat.toDigits 10 n).length⟩ := by
  intro negative
  refine ⟨n, place - (Nat.toDigits 10 n).length, rfl, ?_⟩
  have hdigits : ∀ c ∈ Nat.toDigits 10 n, c.isDigit = true := isDigit_toDigits
  have hsplit := List.take_append_drop place (Nat.toDigits 10 n)
  have hwhole : ∀ c ∈ (Nat.toDigits 10 n).take place, c.isDigit = true :=
    fun c hc => hdigits c (List.mem_of_mem_take hc)
  have hfraction : ∀ c ∈ (Nat.toDigits 10 n).drop place, c.isDigit = true :=
    fun c hc => hdigits c (List.mem_of_mem_drop hc)
  have hne : (Nat.toDigits 10 n).take place ≠ [] := by
    intro hnil
    rcases List.take_eq_nil_iff.mp hnil with hzero | hempty
    · omega
    · exact Nat.toDigits_ne_nil hempty
  have hread := decimal?_point negative hne hwhole hfraction endsDigits_nil rfl
  have hlength : (0 : Int) - ((Nat.toDigits 10 n).drop place).length =
      place - (Nat.toDigits 10 n).length := by
    rw [List.length_drop]
    omega
  rw [hsplit, hlength, Nat.ofDigitChars_ten_toDigits, List.append_nil] at hread
  exact hread

/-- Digits with a point before the digit number `point`. -/
theorem readsAs_positional (n : Nat) (exponent : Int) :
    ReadsAs (NumberLayout.positional (Nat.toDigits 10 n)
      (exponent + (Nat.toDigits 10 n).length)).toList ⟨n, exponent⟩ := by
  obtain ⟨point, hpoint⟩ : ∃ p, p = exponent + (Nat.toDigits 10 n).length := ⟨_, rfl⟩
  rw [← hpoint, NumberLayout.positional]
  by_cases hfirst : point ≤ 0
  · have hread := readsAs_point_zeros n (-point).toNat
    have hexponent : -(((-point).toNat + (Nat.toDigits 10 n).length : Nat) : Int) = exponent := by
      omega
    rw [hexponent] at hread
    simpa [if_pos hfirst] using hread
  rw [if_neg hfirst]
  by_cases hlast : (Nat.toDigits 10 n).length ≤ point.toNat
  · have hread := readsAs_zeros_point n (point.toNat - (Nat.toDigits 10 n).length)
    have hexponent : ((point.toNat - (Nat.toDigits 10 n).length : Nat) : Int) = exponent := by omega
    rw [hexponent] at hread
    simpa [hlast] using hread
  · have hread := readsAs_digits_point (by omega : 0 < point.toNat) (Nat.lt_of_not_le hlast)
    have hexponent : (point.toNat : Int) - (Nat.toDigits 10 n).length = exponent := by omega
    rw [hexponent] at hread
    simpa [hlast] using hread

/-- The digits of an exponent, with zeros before them, spell its magnitude. -/
theorem padded_spec (width n : Nat) :
    (NumberLayout.padded width n).toList ≠ [] ∧
      (∀ c ∈ (NumberLayout.padded width n).toList, c.isDigit = true) ∧
      Nat.ofDigitChars 10 (NumberLayout.padded width n).toList 0 = n := by
  have htext : (NumberLayout.padded width n).toList =
      List.replicate (width - (Nat.repr n).length) '0' ++ Nat.toDigits 10 n := by
    rw [NumberLayout.padded, String.toList_append, String.toList_ofList, Nat.toList_repr]
  rw [htext]
  refine ⟨List.append_ne_nil_of_right_ne_nil _ Nat.toDigits_ne_nil, ?_, ?_⟩
  · exact isDigit_append (isDigit_zeros _) isDigit_toDigits
  · rw [Nat.ofDigitChars_append, Nat.ofDigitChars_replicate_zero, Nat.mul_zero,
      Nat.ofDigitChars_ten_toDigits]

/-- One digit, the others behind a point, and an exponent. -/
theorem readsAs_scientific (layout : NumberLayout) (n : Nat) (exponent : Int) :
    ReadsAs (layout.scientific (Nat.toDigits 10 n)
      (exponent + (Nat.toDigits 10 n).length - 1)).toList ⟨n, exponent⟩ := by
  intro negative
  have hdigits : ∀ c ∈ Nat.toDigits 10 n, c.isDigit = true := isDigit_toDigits
  have hvalue : Nat.ofDigitChars 10 (Nat.toDigits 10 n) 0 = n := Nat.ofDigitChars_ten_toDigits
  obtain ⟨e, he⟩ : ∃ e, e = exponent + (Nat.toDigits 10 n).length - 1 := ⟨_, rfl⟩
  obtain ⟨hne, hpadding, hmagnitude⟩ := padded_spec layout.exponentWidth e.natAbs
  have hexponent := decimalExponent?_text e layout.plusSign hne hpadding hmagnitude
  have hsign : (if e < 0 then "-" else if layout.plusSign then "+" else "").toList =
      exponentSign e layout.plusSign := by
    unfold exponentSign
    split
    · rfl
    split <;> rfl
  have hletter : EndsDigits ('e' :: (exponentSign e layout.plusSign ++
      (NumberLayout.padded layout.exponentWidth e.natAbs).toList)) := endsDigits_cons.mpr rfl
  rw [← he]
  unfold NumberLayout.scientific
  refine ⟨n, exponent, rfl, ?_⟩
  cases hcase : Nat.toDigits 10 n with
  | nil => exact absurd hcase Nat.toDigits_ne_nil
  | cons first tail =>
    rw [hcase] at he hvalue hdigits
    have hfirst : ∀ c ∈ [first], c.isDigit = true := by
      intro c hc
      exact hdigits c (List.mem_singleton.mp hc ▸ List.mem_cons_self)
    cases tail with
    | nil =>
      obtain rfl : exponent = e := by
        simp at he
        omega
      have hread := decimal?_whole negative (List.cons_ne_nil first []) hfirst hletter
        (by simp) hexponent
      rw [hvalue] at hread
      simpa [hsign] using hread
    | cons second tail =>
      have hfraction : ∀ c ∈ second :: tail, c.isDigit = true :=
        fun c hc => hdigits c (List.mem_cons_of_mem _ hc)
      have hplace : e - (second :: tail).length = exponent := by
        rw [List.length_cons] at he
        omega
      have hread := decimal?_point negative (List.cons_ne_nil first []) hfirst hfraction hletter
        hexponent
      have hall : [first] ++ second :: tail = first :: second :: tail := rfl
      rw [hall, hvalue, hplace] at hread
      simpa [hsign] using hread

/-- A decimal number is read back from its text in every layout. -/
theorem readsAs_decimal (layout : NumberLayout) (d : Decimal) :
    ReadsAs (layout.decimal d).toList d := by
  unfold NumberLayout.decimal
  dsimp only
  split
  · exact readsAs_positional d.digits d.exponent
  · exact readsAs_scientific layout d.digits d.exponent

/-! ## Finite numbers -/

/-- A finite number is read back from its text in every layout, if the digits that are chosen for it
lie between its boundaries. -/
theorem decimal?_text (layout : NumberLayout) {choose : Finite64 → Decimal} {x : Finite64}
    (hchoose : 0 < x.significand → x.Surrounds (choose x).toRat) :
    decimal? (layout.text choose (.finite x)).toList = some (.finite x) := by
  have hsign : (if x.negative then "-" else "").toList = signText x.negative := by
    unfold signText
    split <;> rfl
  rw [NumberLayout.text, String.toList_append, hsign]
  by_cases hzero : x.significand = 0
  · have hshift : x.shift = 0 := x.normal.resolve_left (by rw [hzero]; decide)
    have hsame : x = Finite64.zero x.negative := by
      obtain ⟨negative, significand, shift, hlt, hnormal, hle⟩ := x
      subst hzero hshift
      rfl
    have hdigit : ∀ c ∈ ['0'], c.isDigit = true := List.forall_mem_singleton.mpr rfl
    have hread :=
      decimal?_point x.negative (List.cons_ne_nil '0' []) hdigit hdigit endsDigits_nil rfl
    rw [if_pos hzero, hsame]
    exact hread
  · have hpos : 0 < x.significand := Nat.pos_of_ne_zero hzero
    obtain ⟨digits, exponent, hvalue, hread⟩ := readsAs_decimal layout (choose x) x.negative
    rw [if_neg hzero, hread, Binary64.ofDecimal_eq hpos]
    rw [hvalue]
    exact hchoose hpos

end NodeScrape.Yaml
