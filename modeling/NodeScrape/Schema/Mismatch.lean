import NodeScrape.Binary64.Decimal
import NodeScrape.Text.Quoted

/-!
# Mismatches between a document and its schema

A typed reader of a structured document names what it found and what it expected. The sentences are
the same for every document format; the formats differ in their word for nothing and in how they
write numbers.
-/

namespace NodeScrape

/-- What a document holds in the wrong place. -/
inductive Found where
  /-- The value that stands for nothing. -/
  | nothing
  /-- A truth value. -/
  | boolean (value : Bool)
  /-- A whole number within 64 bits. -/
  | integer (value : Int)
  /-- A whole number that needs 128 bits. -/
  | wideInteger (value : Int)
  /-- Any other number. -/
  | float (value : Binary64)
  /-- A text. -/
  | text (value : String)
  /-- A list of values. -/
  | sequence
  /-- Named values. -/
  | map
  deriving DecidableEq

/-- Why a value does not fit its schema. -/
inductive Mismatch where
  /-- A value of the wrong kind. -/
  | invalidType (found : Found) (expected : String)
  /-- A value of the right kind that is not allowed. -/
  | invalidValue (found : Found) (expected : String)
  /-- A list with too few items for a record. -/
  | invalidLength (length : Nat) (expected : String)
  /-- A record without a member it needs. -/
  | missingField (name : String)
  /-- A record with a member given twice. -/
  | duplicateField (name : String)
  /-- A name that is none of the alternatives. -/
  | unknownVariant (name : String) (alternatives : List String)
  deriving DecidableEq

/-- The words of one document format. -/
structure Wording where
  /-- The value that stands for nothing. -/
  nothing : String
  /-- The layout of numbers that are not whole. -/
  layout : NumberLayout
  deriving DecidableEq, Repr

namespace Wording

/-- Whole numbers have at least one digit and no point. -/
private def wholeText (value : Int) : String :=
  if value < 0 then "-" ++ Nat.repr value.natAbs else Nat.repr value.natAbs

/-- What was found, in words. -/
def found (w : Wording) : Found → String
  | .nothing => w.nothing
  | .boolean value => "boolean `" ++ (if value then "true" else "false") ++ "`"
  | .integer value => "integer `" ++ wholeText value ++ "`"
  | .wideInteger value =>
    "integer `" ++ wholeText value ++ "` as " ++ if value < 0 then "i128" else "u128"
  | .float value => "floating point `" ++ w.layout.text Finite64.shortest value ++ "`"
  | .text value => "string " ++ Text.quoted value
  | .sequence => "sequence"
  | .map => "map"

/-- The sentence for a mismatch. -/
def message (w : Wording) : Mismatch → String
  | .invalidType found expected => "invalid type: " ++ w.found found ++ ", expected " ++ expected
  | .invalidValue found expected => "invalid value: " ++ w.found found ++ ", expected " ++ expected
  | .invalidLength length expected =>
    "invalid length " ++ Nat.repr length ++ ", expected " ++ expected
  | .missingField name => "missing field `" ++ name ++ "`"
  | .duplicateField name => "duplicate field `" ++ name ++ "`"
  | .unknownVariant name alternatives =>
    "unknown variant `" ++ name ++ "`, expected one of " ++
      String.intercalate ", " (alternatives.map fun a => "`" ++ a ++ "`")

end Wording

end NodeScrape
