import NodeScrape.Json.Value

/-!
# The text that a JSON string spells

Bytes stand for themselves and have to make valid UTF-8 together with the escapes; a code unit from
the surrogate range counts only as the first half of a pair.
-/

namespace NodeScrape.Json

/-- A code unit that begins a surrogate pair. -/
def isHighSurrogate (n : Nat) : Bool := 0xd800 ≤ n && n ≤ 0xdbff

/-- A code unit that ends a surrogate pair. -/
def isLowSurrogate (n : Nat) : Bool := 0xdc00 ≤ n && n ≤ 0xdfff

/-- The bytes that a string spells. A surrogate without its partner is a fault where it stands; at
the end of a broken string the break decides. -/
def spelledBytes (fault : Option Fault) : List Piece → Except Fault (List UInt8)
  | [] => match fault with
    | some fault => .error fault
    | none => .ok []
  | .byte b :: rest => (b :: ·) <$> spelledBytes fault rest
  | .unit n :: rest =>
    if isLowSurrogate n then .error .malformed
    else if isHighSurrogate n then match rest with
      | [] => .error (fault.getD .malformed)
      | .byte _ :: _ => .error .malformed
      | .unit m :: rest =>
        if isLowSurrogate m then
          let code := 0x10000 + (n - 0xd800) * 0x400 + (m - 0xdc00)
          (String.utf8EncodeChar (Char.ofNat code) ++ ·) <$> spelledBytes fault rest
        else .error .malformed
    else (String.utf8EncodeChar (Char.ofNat n) ++ ·) <$> spelledBytes fault rest

/-- The text that a string spells. -/
def TextToken.read (t : TextToken) : Except Fault String := do
  let bytes ← spelledBytes t.fault t.pieces
  match String.fromUTF8? ⟨bytes.toArray⟩ with
  | some text => return text
  | none => throw .malformed

end NodeScrape.Json
