import Mathlib.Algebra.Group.Nat.Defs
import NodeScrape.Time.Timestamp

/-!
# Runs of decimal digits

A scanner that takes digits stops at the first character that is none, and the digits of a number
spell that number, with zeros before them or without.
-/

namespace NodeScrape.Text

/-- A text that does not go on with a digit. -/
def EndsDigits (text : List Char) : Prop := ∀ c ∈ text.head?, c.isDigit = false

@[simp] theorem endsDigits_nil : EndsDigits [] := nofun

@[simp] theorem endsDigits_cons {c : Char} {rest : List Char} :
    EndsDigits (c :: rest) ↔ c.isDigit = false := by
  simp [EndsDigits]

variable {digits rest : List Char}

theorem EndsDigits.take (hrest : EndsDigits rest) (n : Nat) : EndsDigits (rest.take n) := by
  intro c hc
  cases n with
  | zero => simp at hc
  | succ n =>
    rw [List.head?_take, if_neg n.succ_ne_zero] at hc
    exact hrest c hc

/-- Digits are taken up to where they end. -/
theorem takeWhile_isDigit_append (hdigits : ∀ c ∈ digits, c.isDigit = true)
    (hrest : EndsDigits rest) : (digits ++ rest).takeWhile Char.isDigit = digits := by
  induction digits with
  | nil =>
    cases rest with
    | nil => rfl
    | cons c rest => exact List.takeWhile_cons_of_neg (by simp [endsDigits_cons.mp hrest])
  | cons c digits ih =>
    have hc := hdigits c List.mem_cons_self
    rw [List.cons_append, List.takeWhile_cons_of_pos hc,
      ih fun d hd => hdigits d (List.mem_cons_of_mem _ hd)]

theorem dropWhile_isDigit_append (hdigits : ∀ c ∈ digits, c.isDigit = true)
    (hrest : EndsDigits rest) : (digits ++ rest).dropWhile Char.isDigit = rest := by
  have hsplit := List.takeWhile_append_dropWhile (p := Char.isDigit) (l := digits ++ rest)
  rw [takeWhile_isDigit_append hdigits hrest] at hsplit
  exact List.append_cancel_left hsplit

theorem isDigit_toDigits {n : Nat} : ∀ c ∈ Nat.toDigits 10 n, c.isDigit = true :=
  fun _ hc => Nat.isDigit_of_mem_toDigits (by decide) (by decide) hc

end NodeScrape.Text

namespace NodeScrape.Timestamp

open Text

/-- Zeros before the digits of a number are digits. -/
theorem isDigit_padded {width n : Nat} : ∀ c ∈ padded width n, c.isDigit = true := by
  intro c hc
  rcases List.mem_append.mp hc with hzero | hdigit
  · rw [List.eq_of_mem_replicate hzero]
    rfl
  · exact isDigit_toDigits c hdigit

theorem padded_ne_nil (width n : Nat) : padded width n ≠ [] := by
  intro hnil
  exact Nat.toDigits_ne_nil (List.append_eq_nil_iff.mp hnil).2

/-- Padded digits fill their width if the number fits. -/
theorem length_padded {width n : Nat} (hwidth : 0 < width) (hn : n < 10 ^ width) :
    (padded width n).length = width := by
  have hle : (Nat.toDigits 10 n).length ≤ width :=
    (Nat.length_toDigits_le_iff (by decide) hwidth).mpr hn
  unfold padded
  rw [List.length_append, List.length_replicate]
  omega

/-- Padded digits spell their number. -/
theorem ofDigitChars_padded (width n : Nat) : Nat.ofDigitChars 10 (padded width n) 0 = n := by
  rw [padded, Nat.ofDigitChars_append, Nat.ofDigitChars_replicate_zero, Nat.mul_zero,
    Nat.ofDigitChars_ten_toDigits]

end NodeScrape.Timestamp
