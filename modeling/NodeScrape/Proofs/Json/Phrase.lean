import NodeScrape.Proofs.Json.Number

/-!
# JSON texts taken apart

The grammar of JSON as a tree of phrases. A phrase holds its tokens as they are spelled and the
blanks between them, so its text is determined, and only well-formed texts can be taken apart. The
tree as which a phrase is to be read forgets the blanks and the spelling of escapes.
-/

namespace NodeScrape.Json

/-! ## Tokens -/

/-- Bytes that may stand between tokens. -/
structure Blanks where
  bytes : List UInt8
  blank : ∀ b ∈ bytes, isBlank b = true

/-- No blanks at all. -/
def Blanks.none : Blanks := ⟨[], nofun⟩

/-- The byte of a decimal digit. -/
def digitByte (d : Fin 10) : UInt8 := UInt8.ofNat (0x30 + d)

/-- A hexadecimal digit as it is spelled. -/
structure HexDigit where
  value : Fin 16
  capital : Bool

/-- The byte of a hexadecimal digit. -/
def HexDigit.byte (h : HexDigit) : UInt8 :=
  UInt8.ofNat (if h.value.val < 10 then 0x30 + h.value
    else if h.capital then 0x37 + h.value else 0x57 + h.value)

/-- The letters behind a backslash, each with the byte that it stands for. -/
def shortEscapes : List (UInt8 × UInt8) := [
  (0x22, 0x22), (0x5c, 0x5c), (0x2f, 0x2f), (0x62, 0x08), (0x66, 0x0c), (0x6e, 0x0a), (0x72, 0x0d),
  (0x74, 0x09)]

/-- One unit of a string as it is spelled. -/
inductive Letter where
  /-- A byte that stands for itself: neither quote nor backslash nor control character. -/
  | plain (value : UInt8) (valid : value ≠ 0x22 ∧ value ≠ 0x5c ∧ ¬ value < 0x20)
  /-- A letter behind a backslash. -/
  | escape (letter value : UInt8) (valid : (letter, value) ∈ shortEscapes)
  /-- A code unit by four hexadecimal digits. -/
  | unit (a b c d : HexDigit)

namespace Letter

/-- The bytes of a unit. -/
def bytes : Letter → List UInt8
  | plain value _ => [value]
  | escape letter _ _ => [0x5c, letter]
  | unit a b c d => [0x5c, 0x75, a.byte, b.byte, c.byte, d.byte]

/-- What a unit is read as. -/
def piece : Letter → Piece
  | plain value _ => .byte value
  | escape _ value _ => .byte value
  | unit a b c d => .unit (((a.value * 16 + b.value) * 16 + c.value) * 16 + d.value)

end Letter

/-- A string as it is spelled between its quotes. -/
structure StringText where
  letters : List Letter

namespace StringText

/-- The bytes of a string, its quotes included. -/
def bytes (s : StringText) : List UInt8 := 0x22 :: (s.letters.flatMap Letter.bytes ++ [0x22])

/-- The token as which a string is read. -/
def token (s : StringText) : TextToken := ⟨s.letters.map Letter.piece, none⟩

end StringText

/-- The exponent of a number as it is spelled. -/
structure ExponentText where
  capital : Bool
  /-- Its sign, if one is written; `true` for a minus. -/
  sign : Option Bool
  digits : List (Fin 10)
  digits_ne : digits ≠ []

namespace ExponentText

/-- The bytes of a sign. -/
def signBytes : Option Bool → List UInt8
  | none => []
  | some false => [0x2b]
  | some true => [0x2d]

/-- The bytes of an exponent. -/
def bytes (e : ExponentText) : List UInt8 :=
  (if e.capital then 0x45 else 0x65) :: (signBytes e.sign ++ e.digits.map digitByte)

/-- The value of an exponent. -/
def value (e : ExponentText) : Int :=
  if e.sign = some true then -(natOfDigits (e.digits.map Fin.val) : Int)
  else natOfDigits (e.digits.map Fin.val)

end ExponentText

/-- A number as it is spelled. -/
structure NumberText where
  negative : Bool
  /-- The digits before the point. -/
  whole : List (Fin 10)
  /-- The digits after the point; a point is written only before digits. -/
  fraction : List (Fin 10)
  exponent : Option ExponentText
  /-- No zero stands before other digits. -/
  whole_valid : whole = [0] ∨ ∃ d ds, whole = d :: ds ∧ d ≠ 0

namespace NumberText

/-- The bytes of the digits after the point. -/
def fractionBytes (fraction : List (Fin 10)) : List UInt8 :=
  if fraction.isEmpty then [] else 0x2e :: fraction.map digitByte

/-- The bytes behind the sign. -/
def magnitude (n : NumberText) : List UInt8 :=
  n.whole.map digitByte ++ fractionBytes n.fraction ++ n.exponent.elim [] ExponentText.bytes

/-- The bytes of a number. -/
def bytes (n : NumberText) : List UInt8 := (if n.negative then [0x2d] else []) ++ n.magnitude

/-- The token as which a number is read. -/
def token (n : NumberText) : NumberToken :=
  ⟨n.negative, n.whole.map Fin.val, n.fraction.map Fin.val, n.exponent.map ExponentText.value⟩

end NumberText

/-! ## Phrases -/

/-- The blanks on both sides of a value. -/
structure Margin where
  before : Blanks
  after : Blanks

/-- No blanks on either side. -/
def Margin.none : Margin := ⟨.none, .none⟩

/-- What stands before the value of a member, and the blanks on both sides of that value. -/
structure Label where
  before : Blanks
  name : StringText
  after : Blanks
  margin : Margin

/-- The bytes of a member up to its value: the name, and the colon. -/
def Label.bytes (l : Label) : List UInt8 :=
  l.before.bytes ++ l.name.bytes ++ l.after.bytes ++ 0x3a :: l.margin.before.bytes

/-- A JSON value as it stands in a text. -/
inductive Phrase where
  | null
  | boolean (value : Bool)
  | number (spelling : NumberText)
  | text (spelling : StringText)
  /-- A list; the gap follows its opening bracket. -/
  | array (gap : Blanks) (items : List (Margin × Phrase))
  /-- Named values; the gap follows the opening brace. -/
  | object (gap : Blanks) (members : List (Label × Phrase))

/-- Texts with commas between them. -/
def commaSeparated (texts : List (List UInt8)) : List UInt8 := List.intercalate [0x2c] texts

mutual

/-- The text of a phrase. -/
def Phrase.bytes : Phrase → List UInt8
  | .null => [0x6e, 0x75, 0x6c, 0x6c]
  | .boolean true => [0x74, 0x72, 0x75, 0x65]
  | .boolean false => [0x66, 0x61, 0x6c, 0x73, 0x65]
  | .number n => n.bytes
  | .text s => s.bytes
  | .array gap items => 0x5b :: (gap.bytes ++ commaSeparated (itemTexts items) ++ [0x5d])
  | .object gap members => 0x7b :: (gap.bytes ++ commaSeparated (memberTexts members) ++ [0x7d])

/-- The texts of items. -/
def itemTexts : List (Margin × Phrase) → List (List UInt8)
  | [] => []
  | (m, p) :: rest => (m.before.bytes ++ p.bytes ++ m.after.bytes) :: itemTexts rest

/-- The texts of members. -/
def memberTexts : List (Label × Phrase) → List (List UInt8)
  | [] => []
  | (l, p) :: rest => (l.bytes ++ p.bytes ++ l.margin.after.bytes) :: memberTexts rest

end

mutual

/-- The tree as which a phrase is to be read. -/
def Phrase.tree : Phrase → Value
  | .null => .null
  | .boolean b => .boolean b
  | .number n => .number n.token
  | .text s => .text s.token
  | .array _ items => .array (itemTrees items) none
  | .object _ members => .object (memberTrees members) none

/-- The trees of items. -/
def itemTrees : List (Margin × Phrase) → List Value
  | [] => []
  | (_, p) :: rest => p.tree :: itemTrees rest

/-- The trees of members. -/
def memberTrees : List (Label × Phrase) → List (Value × Value)
  | [] => []
  | (l, p) :: rest => (.text l.name.token, p.tree) :: memberTrees rest

end

/-- A whole text: a phrase between blanks. -/
structure Script where
  margin : Margin
  phrase : Phrase

/-- The bytes of a text. -/
def Script.bytes (s : Script) : List UInt8 :=
  s.margin.before.bytes ++ s.phrase.bytes ++ s.margin.after.bytes

theorem itemTrees_eq_map (items : List (Margin × Phrase)) :
    itemTrees items = items.map fun i => i.2.tree := by
  induction items with
  | nil => rfl
  | cons i items ih => rw [itemTrees, ih, List.map_cons]

theorem memberTrees_eq_map (members : List (Label × Phrase)) :
    memberTrees members = members.map fun m => (.text m.1.name.token, m.2.tree) := by
  induction members with
  | nil => rfl
  | cons m members ih => rw [memberTrees, ih, List.map_cons]

mutual

/-- A phrase has no fault. -/
theorem Phrase.skip_tree : ∀ p : Phrase, p.tree.skip = none
  | .null => rfl
  | .boolean _ => rfl
  | .number _ => rfl
  | .text _ => rfl
  | .array _ items => by
    rw [Phrase.tree, Value.skip, skipItems_trees items]
    rfl
  | .object _ members => by
    rw [Phrase.tree, Value.skip, skipMembers_trees members]
    rfl

theorem skipItems_trees : ∀ items : List (Margin × Phrase), skipItems (itemTrees items) = none
  | [] => rfl
  | (_, p) :: rest => by
    rw [itemTrees, skipItems, p.skip_tree, skipItems_trees rest]
    rfl

theorem skipMembers_trees :
    ∀ members : List (Label × Phrase), skipMembers (memberTrees members) = none
  | [] => rfl
  | (l, p) :: rest => by
    rw [memberTrees, skipMembers, p.skip_tree, skipMembers_trees rest]
    rfl

end

end NodeScrape.Json
