import Mathlib.Tactic.Basic
import NodeScrape.Json.Data
import NodeScrape.Json.Parse
import NodeScrape.Json.Spelling

/-!
# Strings read back from JSON

The token that a written string reads as, and the string that this token spells: every byte is
written so that it comes back, whether it stands for itself, behind a backslash, or as a code unit.
-/

namespace NodeScrape.Json

/-- The unit as which a byte of a written string is read. -/
def writtenPiece (b : UInt8) : Piece :=
  if b = 0x08 ∨ b = 0x0c ∨ b = 0x0a ∨ b = 0x0d ∨ b = 0x09 then .byte b
  else if b < 0x20 then .unit b.toNat
  else .byte b

/-- The token as which a written string is read. -/
def TextToken.ofString (text : String) : TextToken := ⟨text.toUTF8.toList.map writtenPiece, none⟩

/-! ## Reading what is written -/

variable {b e : UInt8} {rest : List UInt8}

/-- A byte behind a backslash. -/
theorem textToken_shortEscape (hunit : e ≠ 0x75) (hshort : shortEscape? e = some b) :
    textToken (0x5c :: e :: rest) = consPiece (.byte b) (textToken rest) := by
  rw [textToken.eq_def]
  simp [hunit, hshort]

/-- A byte that stands for itself. -/
theorem textToken_self (hquote : b ≠ 0x22) (hbackslash : b ≠ 0x5c) (hcontrol : ¬ b < 0x20) :
    textToken (b :: rest) = consPiece (.byte b) (textToken rest) := by
  rw [textToken.eq_def]
  simp only [if_neg hquote, if_neg hbackslash, if_neg hcontrol]

/-- A hexadecimal digit is read back. -/
theorem hexDigit?_hexDigit {n : Nat} (hn : n < 16) : hexDigit? (hexDigit n) = some n := by
  revert n
  decide

/-- A byte as a code unit. -/
theorem textToken_unit (b : UInt8) (rest : List UInt8) :
    textToken (0x5c :: 0x75 :: 0x30 :: 0x30 :: hexDigit (b.toNat / 16) :: hexDigit (b.toNat % 16) ::
      rest) = consPiece (.unit b.toNat) (textToken rest) := by
  have hb : b.toNat < 256 := b.toNat_lt
  have hhigh : hexDigit? (hexDigit (b.toNat / 16)) = some (b.toNat / 16) :=
    hexDigit?_hexDigit (by omega)
  have hlow : hexDigit? (hexDigit (b.toNat % 16)) = some (b.toNat % 16) :=
    hexDigit?_hexDigit (Nat.mod_lt _ (by decide))
  have hzero : hexDigit? 0x30 = some 0 := rfl
  have hvalue : b.toNat / 16 * 16 + b.toNat % 16 = b.toNat := by omega
  rw [textToken.eq_def]
  simp [hzero, hhigh, hlow, hvalue]

/-- A written byte is read as its unit. -/
theorem textToken_writtenByte (b : UInt8) (rest : List UInt8) :
    textToken (writtenByte b ++ rest) = consPiece (writtenPiece b) (textToken rest) := by
  unfold writtenByte
  split
  next h =>
    subst h
    exact textToken_shortEscape (by decide) rfl
  split
  next h =>
    subst h
    exact textToken_shortEscape (by decide) rfl
  next hquote hbackslash =>
    by_cases hshort : b = 0x08 ∨ b = 0x0c ∨ b = 0x0a ∨ b = 0x0d ∨ b = 0x09
    · rcases hshort with rfl | rfl | rfl | rfl | rfl <;>
        exact textToken_shortEscape (by decide) rfl
    · have hpiece : writtenPiece b = if b < 0x20 then .unit b.toNat else .byte b := if_neg hshort
      obtain ⟨h8, hc, ha, hd, h9⟩ : b ≠ 0x08 ∧ b ≠ 0x0c ∧ b ≠ 0x0a ∧ b ≠ 0x0d ∧ b ≠ 0x09 := by
        simpa only [not_or] using hshort
      rw [if_neg h8, if_neg hc, if_neg ha, if_neg hd, if_neg h9, hpiece]
      by_cases hcontrol : b < 0x20
      · rw [if_pos hcontrol, if_pos hcontrol]
        exact textToken_unit b rest
      · rw [if_neg hcontrol, if_neg hcontrol]
        exact textToken_self hquote hbackslash hcontrol

theorem textToken_flatMap_writtenByte (bytes rest : List UInt8) :
    textToken (bytes.flatMap writtenByte ++ 0x22 :: rest) =
      (⟨bytes.map writtenPiece, none⟩, rest) := by
  induction bytes with
  | nil =>
    rw [textToken.eq_def]
    simp
  | cons b bytes ih =>
    rw [List.flatMap_cons, List.append_assoc, textToken_writtenByte, ih]
    rfl

theorem writtenText_append (text : String) (rest : List UInt8) :
    writtenText text ++ rest =
      0x22 :: (text.toUTF8.toList.flatMap writtenByte ++ 0x22 :: rest) := by
  simp [writtenText]

/-! ## What the token spells -/

/-- A control character is one byte of its own. -/
theorem utf8EncodeChar_control (hcontrol : b < 0x20) :
    String.utf8EncodeChar (Char.ofNat b.toNat) = [b] := by
  have hall : ∀ n < 32, String.utf8EncodeChar (Char.ofNat n) = [UInt8.ofNat n] := by decide
  have hb : b.toNat < 32 := UInt8.lt_iff_toNat_lt.mp hcontrol
  simpa using hall b.toNat hb

/-- The units of written bytes spell these bytes. -/
theorem spelledBytes_writtenPiece (bytes : List UInt8) :
    spelledBytes none (bytes.map writtenPiece) = .ok bytes := by
  induction bytes with
  | nil => rfl
  | cons b bytes ih =>
    have hbyte : spelledBytes none (.byte b :: bytes.map writtenPiece) = .ok (b :: bytes) := by
      rw [spelledBytes, ih]
      rfl
    rw [List.map_cons, writtenPiece]
    split
    · exact hbyte
    split
    next hcontrol =>
      have hb : b.toNat < 32 := UInt8.lt_iff_toNat_lt.mp hcontrol
      have hlow : isLowSurrogate b.toNat = false := by
        simp [isLowSurrogate]
        omega
      have hhigh : isHighSurrogate b.toNat = false := by
        simp [isHighSurrogate]
        omega
      rw [spelledBytes.eq_def]
      simp only [hlow, hhigh, Bool.false_eq_true, if_false, ih, utf8EncodeChar_control hcontrol]
      rfl
    · exact hbyte

/-- The bytes of an array from a position on, behind those already taken. -/
theorem toList_loop (bytes : ByteArray) (i : Nat) (taken : List UInt8) :
    ByteArray.toList.loop bytes i taken = taken.reverse ++ bytes.data.toList.drop i := by
  fun_induction ByteArray.toList.loop bytes i taken with
  | case1 i taken hi ih =>
    have hlength : i < bytes.data.toList.length := by simpa using hi
    have hget : bytes.get! i = bytes.data.toList[i] := by
      show bytes.data[i]! = _
      rw [getElem!_pos bytes.data i hi, Array.getElem_toList]
    rw [ih, List.reverse_cons, List.append_assoc, hget, List.singleton_append,
      List.getElem_cons_drop]
  | case2 i taken hi =>
    have hlength : bytes.data.toList.length ≤ i := by simpa using hi
    rw [List.drop_eq_nil_of_le hlength, List.append_nil]

/-- The token of a string spells that string. -/
@[simp] theorem TextToken.read_ofString (text : String) :
    (TextToken.ofString text).read = .ok text := by
  have hbytes : (⟨text.toUTF8.toList.toArray⟩ : ByteArray) = text.toByteArray := by
    apply ByteArray.ext
    show (ByteArray.toList.loop text.toByteArray 0 []).toArray = text.toByteArray.data
    rw [toList_loop]
    simp
  have hvalid : String.fromUTF8? text.toByteArray = some text := dif_pos text.isValidUTF8
  have hspelled : spelledBytes (TextToken.ofString text).fault (TextToken.ofString text).pieces =
      .ok text.toUTF8.toList := spelledBytes_writtenPiece _
  rw [TextToken.read, hspelled]
  simp only [bind, Except.bind, hbytes, hvalid]
  rfl

end NodeScrape.Json
