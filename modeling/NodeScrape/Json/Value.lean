/-!
# JSON values with their faults in place

A text is read into a tree of everything that stands in it up to the first place where it can go
on no longer. Strings and numbers keep their spelling, because a member that nobody asks for is
only skipped, and skipping is more lenient than reading.
-/

namespace NodeScrape.Json

/-- Why a text is no JSON. -/
inductive Fault where
  /-- A character that cannot stand where it does. -/
  | malformed
  /-- The text ends too early. -/
  | truncated
  deriving DecidableEq, Repr

/-- One unit of a string's spelling. -/
inductive Piece where
  /-- A byte that stands for itself or for a short escape. -/
  | byte (value : UInt8)
  /-- A code unit given by four hexadecimal digits. -/
  | unit (value : Nat)
  deriving DecidableEq, Repr

/-- A string as it is spelled, up to its closing quote or a fault. -/
structure TextToken where
  /-- The units of its spelling. -/
  pieces : List Piece
  /-- Why it has no closing quote. -/
  fault : Option Fault
  deriving DecidableEq, Repr

/-- A number as it is spelled. -/
structure NumberToken where
  /-- Whether a minus sign stands before it. -/
  negative : Bool
  /-- The digits before the point. -/
  whole : List Nat
  /-- The digits after the point, none without a point. -/
  fraction : List Nat
  /-- The exponent, if one is written. -/
  exponent : Option Int
  deriving DecidableEq, Repr

/-- What stands in a text where a value is expected. -/
inductive Value where
  /-- The literal for nothing. -/
  | null
  /-- A truth value. -/
  | boolean (value : Bool)
  /-- A number. -/
  | number (token : NumberToken)
  /-- A number that lacks a digit, at the end of the text or before it. -/
  | badNumber (atEnd : Bool)
  /-- A string. -/
  | text (token : TextToken)
  /-- A list, and the fault that stands where a comma or its end is expected. -/
  | array (items : List Value) (fault : Option Fault)
  /-- Named values, their names not yet known to be strings, and the fault at its end. -/
  | object (members : List (Value × Value)) (fault : Option Fault)
  /-- No value at all: the text ends. -/
  | missing
  /-- Something that begins no value or breaks off. -/
  | broken (fault : Fault)

/-- A whole text: its value, and whether anything but blanks follows. -/
structure Document where
  /-- The value. -/
  value : Value
  /-- Whether anything follows it. -/
  trailing : Bool

mutual

/-- The fault that skipping a value meets. Only the shape of strings and numbers matters. -/
def Value.skip : Value → Option Fault
  | .null => none
  | .boolean _ => none
  | .number _ => none
  | .badNumber _ => some .malformed
  | .text token => token.fault
  | .array items fault => skipItems items <|> fault
  | .object members fault => skipMembers members <|> fault
  | .missing => some .truncated
  | .broken fault => some fault

/-- The first fault among the items of a list. -/
def skipItems : List Value → Option Fault
  | [] => none
  | item :: rest => item.skip <|> skipItems rest

/-- The first fault among the members of an object; a name has to be a string. -/
def skipMembers : List (Value × Value) → Option Fault
  | [] => none
  | (.text token, value) :: rest => token.fault <|> value.skip <|> skipMembers rest
  | (.missing, _) :: _ => some .truncated
  | (_, _) :: _ => some .malformed

end

end NodeScrape.Json
