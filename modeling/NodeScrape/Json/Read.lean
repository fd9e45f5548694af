import NodeScrape.Json.Number
import NodeScrape.Json.Parse
import NodeScrape.Json.Spelling
import NodeScrape.Schema.Mismatch

/-!
# Typed readers of JSON

A reader goes through a value from left to right, and the first fault or mismatch that it meets is
its error. A record is read from an object, whose unknown members are skipped, or from a list of its
members in their order.
-/

namespace NodeScrape.Json

/-- Why a text does not decode. -/
inductive Error where
  /-- The text is no JSON. -/
  | fault (fault : Fault)
  /-- The value does not fit. -/
  | mismatch (mismatch : Mismatch)
  /-- A text is no point in time. -/
  | timestamp
  deriving DecidableEq

/-- The words of JSON: numbers are positional from `0.00001` up to sixteen digits. -/
def wording : Wording where
  nothing := "null"
  layout := ⟨some (-4), some 16, true, 2⟩

/-- The sentence for an error. Faults and points in time are named by their class alone. -/
def Error.message : Error → String
  | .fault .malformed => "<syntax>"
  | .fault .truncated => "<eof>"
  | .mismatch m => wording.message m
  | .timestamp => "<time>"

/-- A typed reader. -/
abbrev Reader (α : Type) := Value → Except Error α

/-- The fault of a number that lacks a digit. -/
def badNumberFault (atEnd : Bool) : Fault := if atEnd then .truncated else .malformed

/-- A spelled text. -/
def readToken (t : TextToken) : Except Error String := t.read.mapError .fault

/-- What a value is, for a mismatch. The inside of a list or object is not looked at. -/
def Value.found : Value → Except Error Found
  | .null => .ok .nothing
  | .boolean b => .ok (.boolean b)
  | .number token => match token.value? with
    | some (.unsigned n) => .ok (.integer n)
    | some (.signed n) => .ok (.integer n)
    | some (.float x) => .ok (.float x)
    | none => .error (.fault .malformed)
  | .badNumber atEnd => .error (.fault (badNumberFault atEnd))
  | .text token => Found.text <$> readToken token
  | .array _ _ => .ok .sequence
  | .object _ _ => .ok .map
  | .missing => .error (.fault .truncated)
  | .broken fault => .error (.fault fault)

/-- Refuses a value, whatever it is. -/
def Value.refuse {α : Type} (v : Value) (expected : String) : Except Error α := do
  let found ← v.found
  throw (.mismatch (.invalidType found expected))

/-- Reads a text. -/
def readText (expected : String) : Reader String
  | .text token => readToken token
  | v => v.refuse expected

/-- Reads a truth value. -/
def readBool : Reader Bool
  | .boolean b => .ok b
  | v => v.refuse "a boolean"

/-- Reads a whole number below `bound`. -/
def readNat (bound : Nat) (expected : String) : Reader Nat
  | .number token => match token.value? with
    | some (.unsigned n) =>
      if n < bound then .ok n
      else .error (.mismatch (.invalidValue (.integer n) expected))
    | some (.signed n) => .error (.mismatch (.invalidValue (.integer n) expected))
    | some (.float x) => .error (.mismatch (.invalidType (.float x) expected))
    | none => .error (.fault .malformed)
  | v => v.refuse expected

/-- Reads a word of 64 bits. -/
def readUInt64 : Reader UInt64 := fun v => UInt64.ofNat <$> readNat UInt64.size "u64" v

/-- Reads a word of 16 bits. -/
def readUInt16 : Reader UInt16 := fun v => UInt16.ofNat <$> readNat UInt16.size "u16" v

/-- Reads a value that may be given as nothing. -/
def readOption {α : Type} (read : Reader α) : Reader (Option α)
  | .null => .ok none
  | v => some <$> read v

/-- Ends a list or object. -/
def atEnd (fault : Option Fault) : Except Error Unit :=
  match fault with
  | some fault => .error (.fault fault)
  | none => .ok ()

/-- Reads a list. -/
def readList {α : Type} (read : Reader α) : Reader (List α)
  | .array items fault => do
    let values ← items.mapM read
    atEnd fault
    return values
  | v => v.refuse "a sequence"

/-- Reads one of several alternatives by name, alone or as the only member of an object whose value
is nothing. -/
def readVariant {α : Type} (alternatives : List (String × α)) : Reader α := fun v =>
  let choose (name : String) : Except Error α :=
    match alternatives.lookup name with
    | some a => .ok a
    | none => .error (.mismatch (.unknownVariant name (alternatives.map (·.1))))
  match v with
  | .text token => do choose (← readToken token)
  | .object [] fault => .error (.fault (fault.getD .malformed))
  | .object ((name, content) :: others) fault => do
    let a ← choose (← readText "variant identifier" name)
    match content with
    | .null => pure ()
    | content => content.refuse "unit"
    if !others.isEmpty then throw (.fault .malformed)
    atEnd fault
    return a
  | .missing => .error (.fault .truncated)
  | _ => .error (.fault .malformed)

/-- One member of a record with the draft `σ`: how its value is added to the draft. -/
structure Field (σ : Type) where
  /-- The member's name. -/
  name : String
  /-- Whether the draft has it already. -/
  isSet : σ → Bool
  /-- Whether a list may end before it. -/
  optional : Bool
  /-- Reads its value into the draft. -/
  read : Value → σ → Except Error σ

/-- Reads members into a draft. A known name is checked for repetition before its value is looked
at; the value of an unknown name is skipped. -/
def readMembers {σ : Type} (fields : List (Field σ)) : List (Value × Value) → σ → Except Error σ
  | [], draft => .ok draft
  | (name, value) :: rest, draft => do
    let name ← match name with
      | .text token => readToken token
      | .missing => throw (.fault .truncated)
      | _ => throw (.fault .malformed)
    let draft ← match fields.find? (·.name = name) with
      | some field =>
        if field.isSet draft then throw (.mismatch (.duplicateField name))
        else field.read value draft
      | none => match value.skip with
        | some fault => throw (.fault fault)
        | none => pure draft
    readMembers fields rest draft

/-- Reads the items of a list into a draft, one for each field. A list that is too long is
malformed; one that ends before a field that is not optional is too short. -/
def readItems {σ : Type} (expected : String) (fault : Option Fault) :
    List (Field σ) → List Value → Nat → σ → Except Error σ
  | [], [], _, draft => do
    atEnd fault
    return draft
  | [], _ :: _, _, _ => .error (.fault .malformed)
  | field :: fields, [], n, draft => do
    atEnd fault
    if field.optional then readItems expected fault fields [] n draft
    else throw (.mismatch (.invalidLength n expected))
  | field :: fields, item :: items, n, draft => do
    readItems expected fault fields items (n + 1) (← field.read item draft)

/-- A kind of record: its fields, an empty draft, and the record of a full one. -/
structure RecordType (σ α : Type) where
  /-- The record's name. -/
  name : String
  /-- Its members in their order. -/
  fields : List (Field σ)
  /-- The draft before any member is read. -/
  empty : σ
  /-- The record of a draft; a missing member is named. -/
  finish : σ → Except String α

/-- Reads a record. -/
def RecordType.read {σ α : Type} (r : RecordType σ α) : Reader α := fun v =>
  let finish (draft : σ) : Except Error α :=
    (r.finish draft).mapError fun name => .mismatch (.missingField name)
  match v with
  | .object members fault => do
    let draft ← readMembers r.fields members r.empty
    atEnd fault
    finish draft
  | .array items fault => do
    let count := Nat.repr r.fields.length ++ if r.fields.length = 1 then " element" else " elements"
    let draft ← readItems ("struct " ++ r.name ++ " with " ++ count) fault r.fields items 0 r.empty
    finish draft
  | v => v.refuse ("struct " ++ r.name)

/-- Decodes a whole text. -/
def decode {α : Type} (read : Reader α) (bytes : List UInt8) : Except Error α := do
  let document := document bytes
  let a ← read document.value
  if document.trailing then throw (.fault .malformed)
  return a

end NodeScrape.Json
