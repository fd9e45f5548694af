import NodeScrape.Proofs.Yaml.Number

/-!
# Numerals

A scanner of digits in any base stops at the first character that is none. Decimal digits that begin
with no zero are the very digits of the number that they spell.
-/

namespace NodeScrape.Text

variable {base : Nat} {c : Char} {text taken rest : List Char} {values : List Nat}

/-- The run of digits at the start of a text goes up to a character that is none. -/
theorem digitRun_split (base : Nat) (text : List Char) :
    ∃ taken, text = taken ++ (digitRun base text).2 ∧
      taken.map (digitValue? base) = (digitRun base text).1.map some ∧
      ∀ c ∈ (digitRun base text).2.head?, digitValue? base c = none := by
  induction text with
  | nil => exact ⟨[], rfl, rfl, nofun⟩
  | cons c text ih =>
    cases hc : digitValue? base c with
    | none =>
      simp only [digitRun, hc]
      refine ⟨[], rfl, rfl, ?_⟩
      rintro _ ⟨⟩
      exact hc
    | some d =>
      obtain ⟨taken, htext, hvalues, hends⟩ := ih
      simp only [digitRun, hc]
      refine ⟨c :: taken, ?_, ?_, hends⟩
      · rw [List.cons_append, ← htext]
      · rw [List.map_cons, hvalues, hc, List.map_cons]

/-- Digits are taken up to where they end. -/
theorem digitRun_append_of_map (hvalues : taken.map (digitValue? base) = values.map some)
    (hrest : ∀ c ∈ rest.head?, digitValue? base c = none) :
    digitRun base (taken ++ rest) = (values, rest) := by
  induction taken generalizing values with
  | nil =>
    obtain rfl := List.map_eq_nil_iff.mp hvalues.symm
    cases rest with
    | nil => rfl
    | cons c rest => rw [List.nil_append, digitRun, hrest c rfl]
  | cons c taken ih =>
    obtain ⟨d, more, rfl, hd, hmore⟩ := List.map_eq_cons_iff.mp hvalues.symm
    rw [List.cons_append, digitRun, ← hd, ih hmore.symm]

/-- A decimal digit is the character of its value. -/
theorem eq_digitChar_of_digitValue? {d : Nat} (hc : digitValue? 10 c = some d) :
    d < 10 ∧ c = Nat.digitChar d := by
  cases hdigit : c.isDigit with
  | false =>
    rw [Yaml.digitValue?_of_not_isDigit hdigit] at hc
    cases hc
  | true =>
    obtain ⟨hlow, hhigh⟩ : 48 ≤ c.toNat ∧ c.toNat ≤ 57 := Char.isDigit_iff_toNat.mp hdigit
    rw [Yaml.digitValue?_of_isDigit hdigit] at hc
    have hvalue : c.toNat - 48 = d := Option.some.inj hc
    have hd : d < 10 := by omega
    refine ⟨hd, Char.toNat_inj.mp ?_⟩
    rw [Nat.toNat_digitChar_of_lt_ten hd]
    omega

/-- Decimal digits are the characters of their values. -/
theorem eq_map_digitChar (hvalues : taken.map (digitValue? 10) = values.map some) :
    (∀ d ∈ values, d < 10) ∧ taken = values.map Nat.digitChar := by
  induction taken generalizing values with
  | nil =>
    obtain rfl := List.map_eq_nil_iff.mp hvalues.symm
    exact ⟨nofun, rfl⟩
  | cons c taken ih =>
    obtain ⟨d, more, rfl, hd, hmore⟩ := List.map_eq_cons_iff.mp hvalues.symm
    obtain ⟨hlt, hchar⟩ := eq_digitChar_of_digitValue? hd.symm
    obtain ⟨hall, htaken⟩ := ih hmore.symm
    exact ⟨List.forall_mem_cons.mpr ⟨hlt, hall⟩, by rw [List.map_cons, ← hchar, ← htaken]⟩

theorem numberOf_concat (base : Nat) (values : List Nat) (d : Nat) :
    numberOf base (values ++ [d]) = numberOf base values * base + d := by
  rw [numberOf, List.foldl_append]
  rfl

/-- Digits that begin with no zero spell a positive number. -/
theorem numberOf_pos (hhead : values.head? ≠ some 0) (hne : values ≠ []) :
    0 < numberOf 10 values := by
  induction values using List.reverseRecOn with
  | nil => exact absurd rfl hne
  | append_singleton values d ih =>
    rw [numberOf_concat]
    cases values with
    | nil =>
      have hd : d ≠ 0 := fun hd => hhead (congrArg some hd)
      have hzero : numberOf 10 [] = 0 := rfl
      omega
    | cons first values =>
      have hpos := ih hhead (List.cons_ne_nil _ _)
      omega

/-- Digits without a leading zero are the digits of the number that they spell. -/
theorem toDigits_numberOf (hlt : ∀ d ∈ values, d < 10) (hne : values ≠ [])
    (hzero : values.length = 1 ∨ values.head? ≠ some 0) :
    Nat.toDigits 10 (numberOf 10 values) = values.map Nat.digitChar := by
  induction values using List.reverseRecOn with
  | nil => exact absurd rfl hne
  | append_singleton values d ih =>
    have hd : d < 10 := hlt d (List.mem_append_right _ (List.mem_singleton_self d))
    rw [numberOf_concat, List.map_append]
    cases values with
    | nil =>
      have hspelt : numberOf 10 [] * 10 + d = d := by
        have hempty : numberOf 10 [] = 0 := rfl
        omega
      rw [hspelt, Nat.toDigits_of_lt_base hd]
      rfl
    | cons first values =>
      have hhead : (first :: values).head? ≠ some 0 := by
        rcases hzero with hlength | hhead
        · simp at hlength
        · exact hhead
      have hbefore := ih (fun e he => hlt e (List.mem_append_left _ he)) (List.cons_ne_nil _ _)
        (.inr hhead)
      have hpos := numberOf_pos hhead (List.cons_ne_nil _ _)
      rw [Nat.mul_comm, ← Nat.toDigits_append_toDigits (by decide) hpos hd, hbefore,
        Nat.toDigits_of_lt_base hd]
      rfl

/-- The digits of a positive number begin with no zero. -/
theorem head?_toDigits {n : Nat} (hn : 0 < n) : (Nat.toDigits 10 n).head? ≠ some '0' := by
  induction n using Nat.strongRecOn with
  | ind n ih =>
    by_cases hlt : n < 10
    · rw [Nat.toDigits_of_lt_base hlt]
      intro hhead
      have hzero := Nat.digitChar_eq_zero.mp (Option.some.inj hhead)
      omega
    · rw [Nat.toDigits_of_base_le (by decide) (by omega),
        List.head?_append_of_ne_nil _ Nat.toDigits_ne_nil]
      exact ih (n / 10) (by omega) (by omega)

/-- The digits of a number begin with a zero only if there is just one. -/
theorem length_or_head?_toDigits (n : Nat) :
    (Nat.toDigits 10 n).length = 1 ∨
      ((Nat.toDigits 10 n).map fun c => c.toNat - '0'.toNat).head? ≠ some 0 := by
  by_cases hlt : n < 10
  · left
    rw [Nat.toDigits_of_lt_base hlt]
    rfl
  · right
    rw [List.head?_map]
    intro hhead
    obtain ⟨c, hc, hvalue⟩ := Option.map_eq_some_iff.mp hhead
    have hlow : '0'.toNat ≤ c.toNat :=
      (Char.isDigit_iff_toNat.mp (isDigit_toDigits c (List.mem_of_mem_head? hc))).1
    have hcode : c.toNat = '0'.toNat := by omega
    rw [Char.toNat_inj.mp hcode] at hc
    exact head?_toDigits (by omega) hc

/-- A number is read back from its digits, as long as no further digit follows. -/
theorem exists_digitRun_toDigits (n : Nat) (hrest : EndsDigits rest) :
    ∃ values, digitRun 10 (Nat.toDigits 10 n ++ rest) = (values, rest) ∧ numberOf 10 values = n ∧
      values.length = (Nat.toDigits 10 n).length ∧
      (values.length = 1 ∨ values.head? ≠ some 0) := by
  have hvalue := Yaml.numberOf_map (Nat.toDigits 10 n)
  rw [Nat.ofDigitChars_ten_toDigits] at hvalue
  refine ⟨_, Yaml.decimalRun_append isDigit_toDigits hrest, hvalue, List.length_map _, ?_⟩
  rw [List.length_map]
  exact length_or_head?_toDigits n

theorem scanNumber_toDigits {n bound : Nat} (hn : n < bound) (hrest : EndsDigits rest) :
    scanNumber 10 bound (Nat.toDigits 10 n ++ rest) = some (n, rest) := by
  obtain ⟨values, hrun, hvalue, hlength, -⟩ := exists_digitRun_toDigits n hrest
  have hne : values ≠ [] := by
    rintro rfl
    exact Nat.toDigits_ne_nil (List.length_eq_zero_iff.mp hlength.symm)
  simp [scanNumber, hrun, hvalue, hn, hne]

end NodeScrape.Text
