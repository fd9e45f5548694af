import Mathlib.Tactic.Basic
import NodeScrape.Json.Data
import NodeScrape.Json.Number
import NodeScrape.Json.Parse

/-!
# Numbers read back from JSON

A written number has no zeros before its first digit, so its digits are read as a number, and that
number is exact as long as it fits into 64 bits.
-/

namespace NodeScrape.Json

/-- The decimal digits of a number, by value. -/
def digitValues (n : Nat) : List Nat := (Nat.toDigits 10 n).map fun c => c.toNat - 48

/-- The token as which a written number is read. -/
def NumberToken.ofNat (n : Nat) : NumberToken := ⟨false, digitValues n, [], none⟩

/-- A text in which a number does not go on. -/
def EndsNumber (rest : List UInt8) : Prop :=
  ∀ b ∈ rest.head?, digit? b = none ∧ b ≠ 0x2e ∧ b ≠ 0x65 ∧ b ≠ 0x45

theorem endsNumber_nil : EndsNumber [] := nofun

theorem endsNumber_cons {b : UInt8} {rest : List UInt8}
    (hb : digit? b = none ∧ b ≠ 0x2e ∧ b ≠ 0x65 ∧ b ≠ 0x45) : EndsNumber (b :: rest) := by
  intro a ha
  obtain rfl : b = a := Option.some.inj ha
  exact hb

variable {n : Nat} {rest : List UInt8}

/-! ## Digits -/

/-- A decimal digit is read back from its byte. -/
theorem digit?_of_isDigit {c : Char} (hc : c.isDigit = true) :
    digit? (UInt8.ofNat c.toNat) = some (c.toNat - 48) := by
  obtain ⟨hlow, hhigh⟩ := Char.isDigit_iff_toNat.mp hc
  have hbyte : (UInt8.ofNat c.toNat).toNat = c.toNat := by
    have hle : c.toNat ≤ 57 := hhigh
    exact UInt8.toNat_ofNat_of_lt' (Nat.lt_of_le_of_lt hle (by decide))
  have hrange : (0x30 ≤ UInt8.ofNat c.toNat && UInt8.ofNat c.toNat ≤ 0x39) = true := by
    rw [Bool.and_eq_true, decide_eq_true_iff, decide_eq_true_iff, UInt8.le_iff_toNat_le,
      UInt8.le_iff_toNat_le, hbyte]
    exact ⟨hlow, hhigh⟩
  rw [digit?, if_pos hrange, hbyte]

/-- Digits are read up to where they end. -/
theorem digits_append {text : List Char} (htext : ∀ c ∈ text, c.isDigit = true)
    (hrest : ∀ b ∈ rest.head?, digit? b = none) :
    digits (text.map (fun c => UInt8.ofNat c.toNat) ++ rest) =
      (text.map (fun c => c.toNat - 48), rest) := by
  induction text with
  | nil =>
    cases rest with
    | nil => rfl
    | cons b rest =>
      have hb : digit? b = none := hrest b rfl
      simp [digits, hb]
  | cons c text ih =>
    have hc := digit?_of_isDigit (htext c List.mem_cons_self)
    have hread := ih fun d hd => htext d (List.mem_cons_of_mem _ hd)
    rw [List.map_cons, List.cons_append, digits, hc, hread]
    rfl

theorem digits_writtenNat (hrest : ∀ b ∈ rest.head?, digit? b = none) :
    digits (writtenNat n ++ rest) = (digitValues n, rest) :=
  digits_append (fun _ hc => Nat.isDigit_of_mem_toDigits (by decide) (by decide) hc) hrest

theorem digitValues_of_lt (hn : n < 10) : digitValues n = [n] := by
  rw [digitValues, Nat.toDigits_of_lt_base hn, List.map_singleton, Nat.toNat_digitChar_of_lt_ten hn]
  exact congrArg (· :: []) (Nat.add_sub_cancel_left 48 n)

theorem digitValues_of_le (hn : 10 ≤ n) : digitValues n = digitValues (n / 10) ++ [n % 10] := by
  have hlast : n % 10 < 10 := Nat.mod_lt _ (by decide)
  rw [digitValues, Nat.toDigits_of_base_le (by decide) hn, List.map_append]
  exact congrArg (digitValues (n / 10) ++ ·) (by
    rw [List.map_singleton, Nat.toNat_digitChar_of_lt_ten hlast, Nat.add_sub_cancel_left])

/-- Only zero begins with a zero. -/
theorem digitValues_head (hn : 0 < n) : ∃ d ds, digitValues n = (d + 1) :: ds := by
  induction n using Nat.strongRecOn with
  | ind n ih =>
    by_cases hsmall : n < 10
    · refine ⟨n - 1, [], ?_⟩
      rw [digitValues_of_lt hsmall, Nat.sub_add_cancel hn]
    · obtain ⟨d, ds, hhead⟩ := ih (n / 10) (by omega) (by omega)
      refine ⟨d, ds ++ [n % 10], ?_⟩
      rw [digitValues_of_le (by omega), hhead, List.cons_append]

/-- The digits of a number spell that number. -/
theorem foldl_digitValues (n : Nat) : (digitValues n).foldl (fun s d => s * 10 + d) 0 = n := by
  induction n using Nat.strongRecOn with
  | ind n ih =>
    by_cases hsmall : n < 10
    · rw [digitValues_of_lt hsmall]
      simp
    · rw [digitValues_of_le (by omega), List.foldl_append, ih (n / 10) (by omega)]
      simp only [List.foldl_cons, List.foldl_nil]
      omega

/-! ## The value -/

theorem le_foldl_digits (s : Nat) (ds : List Nat) : s ≤ ds.foldl (fun s d => s * 10 + d) s := by
  induction ds generalizing s with
  | nil => exact Nat.le_refl s
  | cons d ds ih =>
    have hstep : s * 10 + d ≤ (d :: ds).foldl (fun s d => s * 10 + d) s := ih (s * 10 + d)
    omega

/-- Digits are gathered to the last if the number fits. -/
theorem gather_eq (s : Nat) (ds : List Nat)
    (hfits : ds.foldl (fun s d => s * 10 + d) s < UInt64.size) :
    gather s ds = (ds.foldl (fun s d => s * 10 + d) s, ds.length) := by
  induction ds generalizing s with
  | nil => rfl
  | cons d ds ih =>
    have hle : s * 10 + d ≤ ds.foldl (fun s d => s * 10 + d) (s * 10 + d) := le_foldl_digits _ ds
    have hstep : s * 10 + d < UInt64.size := Nat.lt_of_le_of_lt hle hfits
    rw [gather, if_pos hstep, ih (s * 10 + d) hfits]
    rfl

/-- A written number of 64 bits has its value. -/
theorem NumberToken.value?_ofNat (hn : n < UInt64.size) :
    (NumberToken.ofNat n).value? = some (.unsigned n) := by
  have hfits : (digitValues n).foldl (fun s d => s * 10 + d) 0 < UInt64.size := by
    rwa [foldl_digitValues]
  have hgather := gather_eq 0 (digitValues n) hfits
  rw [foldl_digitValues] at hgather
  simp [NumberToken.value?, NumberToken.ofNat, hgather]

/-- A written number is read as its token. -/
theorem numberToken_writtenNat (hrest : EndsNumber rest) :
    numberToken false (writtenNat n ++ rest) = .ok (.ofNat n, rest) := by
  have hdigits := digits_writtenNat (n := n) fun b hb => (hrest b hb).1
  have hwhole : digitValues n = [0] ∨ ∃ d ds, digitValues n = (d + 1) :: ds := by
    by_cases hzero : n = 0
    · subst hzero
      exact .inl (digitValues_of_lt (by decide))
    · exact .inr (digitValues_head (Nat.pos_of_ne_zero hzero))
  unfold numberToken
  rw [hdigits, NumberToken.ofNat]
  cases rest with
  | nil =>
    rcases hwhole with hzero | ⟨d, ds, hhead⟩
    · rw [hzero]
      rfl
    · rw [hhead]
      rfl
  | cons b rest =>
    obtain ⟨-, hpoint, hlower, hupper⟩ := hrest b rfl
    rcases hwhole with hzero | ⟨d, ds, hhead⟩
    · rw [hzero]
      simp [hpoint, hlower, hupper]
      rfl
    · rw [hhead]
      simp [hpoint, hlower, hupper]
      rfl

end NodeScrape.Json
