import NodeScrape.Json.Value

/-!
# JSON data and its text

Data that is written has whole numbers only. Its text has no blanks, strings escape what has to be
escaped and nothing else.
-/

namespace NodeScrape.Json

/-- Data to be written. -/
inductive Data where
  /-- Nothing. -/
  | null
  /-- A truth value. -/
  | boolean (value : Bool)
  /-- A whole number. -/
  | number (value : Nat)
  /-- A text. -/
  | text (value : String)
  /-- A list. -/
  | array (items : List Data)
  /-- Named values in their order. -/
  | object (members : List (String × Data))

/-- A hexadecimal digit of a control character. -/
def hexDigit (n : Nat) : UInt8 := if n < 10 then UInt8.ofNat (0x30 + n) else UInt8.ofNat (0x57 + n)

/-- A byte of a string as it is written. -/
def writtenByte (b : UInt8) : List UInt8 :=
  if b = 0x22 then [0x5c, 0x22]
  else if b = 0x5c then [0x5c, 0x5c]
  else if b = 0x08 then [0x5c, 0x62]
  else if b = 0x0c then [0x5c, 0x66]
  else if b = 0x0a then [0x5c, 0x6e]
  else if b = 0x0d then [0x5c, 0x72]
  else if b = 0x09 then [0x5c, 0x74]
  else if b < 0x20 then [0x5c, 0x75, 0x30, 0x30, hexDigit (b.toNat / 16), hexDigit (b.toNat % 16)]
  else [b]

/-- A text between quotes. -/
def writtenText (text : String) : List UInt8 :=
  0x22 :: text.toUTF8.toList.flatMap writtenByte ++ [0x22]

/-- Decimal digits. -/
def writtenNat (n : Nat) : List UInt8 :=
  (Nat.toDigits 10 n).map fun c => UInt8.ofNat c.toNat

mutual

/-- The text of data. -/
def Data.render : Data → List UInt8
  | .null => [0x6e, 0x75, 0x6c, 0x6c]
  | .boolean true => [0x74, 0x72, 0x75, 0x65]
  | .boolean false => [0x66, 0x61, 0x6c, 0x73, 0x65]
  | .number n => writtenNat n
  | .text s => writtenText s
  | .array items => 0x5b :: renderItems items
  | .object members => 0x7b :: renderMembers members

/-- The items of a list, up to its end. -/
def renderItems : List Data → List UInt8
  | [] => [0x5d]
  | [item] => item.render ++ [0x5d]
  | item :: rest => item.render ++ 0x2c :: renderItems rest

/-- The members of an object, up to its end. -/
def renderMembers : List (String × Data) → List UInt8
  | [] => [0x7d]
  | [(name, item)] => writtenText name ++ 0x3a :: item.render ++ [0x7d]
  | (name, item) :: rest => writtenText name ++ 0x3a :: item.render ++ 0x2c :: renderMembers rest

end

/-- A value that may be absent, written as nothing. -/
def Data.ofOption {α : Type} (write : α → Data) : Option α → Data
  | none => .null
  | some a => write a

end NodeScrape.Json
