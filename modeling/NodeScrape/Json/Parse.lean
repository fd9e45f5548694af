import NodeScrape.Json.Value

/-!
# JSON text

Reads bytes into a tree. Nothing here fails: a fault becomes part of the tree where it stands, and
what comes after it is of no account.
-/

namespace NodeScrape.Json

/-- The bytes that may stand between tokens. -/
def isBlank (b : UInt8) : Bool := b = 0x20 || b = 0x0a || b = 0x0d || b = 0x09

/-- Drops the blanks at the start. -/
def skipBlanks (bytes : List UInt8) : List UInt8 := bytes.dropWhile isBlank

/-- A decimal digit's value. -/
def digit? (b : UInt8) : Option Nat :=
  if 0x30 ≤ b && b ≤ 0x39 then some (b.toNat - 0x30) else none

/-- A hexadecimal digit's value. -/
def hexDigit? (b : UInt8) : Option Nat :=
  if 0x30 ≤ b && b ≤ 0x39 then some (b.toNat - 0x30)
  else if 0x41 ≤ b && b ≤ 0x46 then some (b.toNat - 0x41 + 10)
  else if 0x61 ≤ b && b ≤ 0x66 then some (b.toNat - 0x61 + 10)
  else none

/-- The digits at the start, and the rest. -/
def digits : List UInt8 → List Nat × List UInt8
  | [] => ([], [])
  | b :: rest => match digit? b with
    | some d => let (ds, rest) := digits rest; (d :: ds, rest)
    | none => ([], b :: rest)

/-- The natural number that digits spell. -/
def natOfDigits (ds : List Nat) : Nat := ds.foldl (fun n d => n * 10 + d) 0

/-- The byte that a short escape stands for. -/
def shortEscape? (b : UInt8) : Option UInt8 :=
  if b = 0x22 || b = 0x5c || b = 0x2f then some b
  else if b = 0x62 then some 0x08
  else if b = 0x66 then some 0x0c
  else if b = 0x6e then some 0x0a
  else if b = 0x72 then some 0x0d
  else if b = 0x74 then some 0x09
  else none

/-- Adds a unit to the front of a string's spelling. -/
def consPiece (p : Piece) (r : TextToken × List UInt8) : TextToken × List UInt8 :=
  (⟨p :: r.1.pieces, r.1.fault⟩, r.2)

/-- A string from behind its opening quote, and what follows it. An escape by code unit needs four
bytes before it is looked at. -/
def textToken : List UInt8 → TextToken × List UInt8
  | [] => (⟨[], some .truncated⟩, [])
  | b :: rest =>
    if b = 0x22 then (⟨[], none⟩, rest)
    else if b = 0x5c then match rest with
      | [] => (⟨[], some .truncated⟩, [])
      | e :: rest =>
        if e = 0x75 then match rest with
          | a :: b :: c :: d :: rest =>
            match hexDigit? a, hexDigit? b, hexDigit? c, hexDigit? d with
            | some a, some b, some c, some d =>
              consPiece (.unit (((a * 16 + b) * 16 + c) * 16 + d)) (textToken rest)
            | _, _, _, _ => (⟨[], some .malformed⟩, rest)
          | _ => (⟨[], some .truncated⟩, [])
        else match shortEscape? e with
          | some byte => consPiece (.byte byte) (textToken rest)
          | none => (⟨[], some .malformed⟩, rest)
    else if b < 0x20 then (⟨[], some .malformed⟩, rest)
    else consPiece (.byte b) (textToken rest)

/-- The exponent after the letter that announces it. -/
def exponent (bytes : List UInt8) : Except Bool (Int × List UInt8) :=
  let (negative, bytes) := match bytes with
    | 0x2b :: rest => (false, rest)
    | 0x2d :: rest => (true, rest)
    | _ => (false, bytes)
  match digits bytes with
  | ([], rest) => .error rest.isEmpty
  | (ds, rest) => .ok (if negative then -(natOfDigits ds : Int) else natOfDigits ds, rest)

/-- A number from behind its sign. A missing digit is reported with whether the text ends there. -/
def numberToken (negative : Bool) (bytes : List UInt8) : Except Bool (NumberToken × List UInt8) := do
  let (whole, rest) := digits bytes
  match whole with
  | [] => throw rest.isEmpty
  | 0 :: _ :: _ => throw false
  | _ => pure ()
  let (fraction, rest) ← match rest with
    | 0x2e :: rest => match digits rest with
      | ([], rest) => throw rest.isEmpty
      | (fraction, rest) => pure (fraction, rest)
    | _ => pure ([], rest)
  match rest with
  | b :: after =>
    if b = 0x65 || b = 0x45 then
      let (e, rest) ← exponent after
      return (⟨negative, whole, fraction, some e⟩, rest)
    else return (⟨negative, whole, fraction, none⟩, rest)
  | [] => return (⟨negative, whole, fraction, none⟩, rest)

/-- A literal whose first letter has been seen. -/
def literal (value : Value) : List UInt8 → List UInt8 → Value × List UInt8
  | [], rest => (value, rest)
  | _ :: _, [] => (.broken .truncated, [])
  | w :: word, b :: rest => if b = w then literal value word rest else (.broken .malformed, rest)

/-- What follows an item of a list or object: a comma, its end, or a fault. -/
inductive Continuation where
  /-- Another item follows. -/
  | more (rest : List UInt8)
  /-- The list ends, well or not. -/
  | stop (fault : Option Fault) (rest : List UInt8)

/-- Decides how a list or object goes on after an item. -/
def continuation (close : UInt8) (bytes : List UInt8) : Continuation :=
  match skipBlanks bytes with
  | [] => .stop (some .truncated) []
  | b :: rest =>
    if b = 0x2c then .more rest
    else if b = close then .stop none rest
    else .stop (some .malformed) rest

mutual

/-- A value, and what follows it. -/
def value : Nat → List UInt8 → Value × List UInt8
  | 0, bytes => (.broken .malformed, bytes)
  | fuel + 1, bytes =>
    match skipBlanks bytes with
    | [] => (.missing, [])
    | b :: rest =>
      if b = 0x22 then let (token, rest) := textToken rest; (.text token, rest)
      else if b = 0x5b then match skipBlanks rest with
        | [] => (.array [] (some .truncated), [])
        | c :: after =>
          if c = 0x5d then (.array [] none, after)
          else let (items, fault, rest) := items fuel rest; (.array items fault, rest)
      else if b = 0x7b then match skipBlanks rest with
        | [] => (.object [] (some .truncated), [])
        | c :: after =>
          if c = 0x7d then (.object [] none, after)
          else let (members, fault, rest) := members fuel rest; (.object members fault, rest)
      else if b = 0x6e then literal .null [0x75, 0x6c, 0x6c] rest
      else if b = 0x74 then literal (.boolean true) [0x72, 0x75, 0x65] rest
      else if b = 0x66 then literal (.boolean false) [0x61, 0x6c, 0x73, 0x65] rest
      else if b = 0x2d || (digit? b).isSome then
        match numberToken (b = 0x2d) (if b = 0x2d then rest else b :: rest) with
        | .ok (token, rest) => (.number token, rest)
        | .error atEnd => (.badNumber atEnd, [])
      else (.broken .malformed, b :: rest)

/-- The items of a list, the fault at its end, and what follows it. -/
def items : Nat → List UInt8 → List Value × Option Fault × List UInt8
  | 0, bytes => ([], some .malformed, bytes)
  | fuel + 1, bytes =>
    let (item, rest) := value fuel bytes
    match continuation 0x5d rest with
    | .more rest => let (more, fault, rest) := items fuel rest; (item :: more, fault, rest)
    | .stop fault rest => ([item], fault, rest)

/-- The members of an object, the fault at its end, and what follows it. -/
def members : Nat → List UInt8 → List (Value × Value) × Option Fault × List UInt8
  | 0, bytes => ([], some .malformed, bytes)
  | fuel + 1, bytes =>
    let (name, rest) := value fuel bytes
    let (item, rest) := match skipBlanks rest with
      | [] => (.broken .truncated, [])
      | b :: rest => if b = 0x3a then value fuel rest else (.broken .malformed, rest)
    match continuation 0x7d rest with
    | .more rest => let (more, fault, rest) := members fuel rest; ((name, item) :: more, fault, rest)
    | .stop fault rest => ([(name, item)], fault, rest)

end

/-- A whole text. Every two steps of the reader take at least one byte. -/
def document (bytes : List UInt8) : Document :=
  let (value, rest) := value (2 * bytes.length + 2) bytes
  ⟨value, !(skipBlanks rest).isEmpty⟩

end NodeScrape.Json
