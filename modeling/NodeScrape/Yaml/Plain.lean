import NodeScrape.Schema.Mismatch
import NodeScrape.Text.Scan

/-!
# The meaning of plain scalars

A scalar without marks may stand for nothing, a truth value or a number. Whole numbers may be in
base sixteen, eight or two behind a prefix; digits that begin with a zero are text.
-/

namespace NodeScrape.Yaml

open NodeScrape.Text (digitValue? digitRun numberOf)

/-- Whether a text stands for nothing. -/
def isNothing (text : List Char) : Bool :=
  text = "null".toList || text = "Null".toList || text = "NULL".toList || text = "~".toList

/-- The truth value that a text stands for. -/
def boolean? (text : List Char) : Option Bool :=
  if text = "true".toList || text = "True".toList || text = "TRUE".toList then some true
  else if text = "false".toList || text = "False".toList || text = "FALSE".toList then some false
  else none

/-- Drops a plus sign. -/
def dropPlus : List Char → List Char
  | '+' :: rest => rest
  | text => text

/-- Drops one sign. -/
def dropSign : List Char → List Char
  | '+' :: rest => rest
  | '-' :: rest => rest
  | text => text

/-- Whether a text begins with a sign. -/
def hasSign (text : List Char) : Bool := text.head? = some '+' || text.head? = some '-'

/-- Whether a text has the digits of a number but a zero before them. -/
def isPaddedDigits (text : List Char) : Bool :=
  match dropSign text with
  | '0' :: rest => !rest.isEmpty && rest.all Char.isDigit
  | _ => false

/-- The natural number that a whole text spells in a base. -/
def natural? (base : Nat) (text : List Char) : Option Nat :=
  match digitRun base text with
  | (d :: ds, []) => some (numberOf base (d :: ds))
  | _ => none

/-- The base that a prefix announces, and the text behind it. -/
def based? : List Char → Option (Nat × List Char)
  | '0' :: 'x' :: rest => some (16, rest)
  | '0' :: 'o' :: rest => some (8, rest)
  | '0' :: 'b' :: rest => some (2, rest)
  | _ => none

/-- The natural number below `bound` that a text stands for. -/
def unsigned? (bound : Nat) (text : List Char) : Option Nat :=
  let body := dropPlus text
  let inBase := do
    let (base, rest) ← based? body
    (natural? base rest).filter (· < bound)
  match inBase with
  | some n => some n
  | none =>
    if hasSign body || isPaddedDigits text then none
    else (natural? 10 body).filter (· < bound)

/-- The number from `-bound` up to zero that a text with a minus sign stands for. -/
def negative? (bound : Nat) (text : List Char) : Option Int :=
  match text with
  | '-' :: body =>
    let inBase := do
      let (base, rest) ← based? body
      (natural? base rest).filter (· ≤ bound)
    let n := match inBase with
      | some n => some n
      | none => if isPaddedDigits text then none else (natural? 10 body).filter (· ≤ bound)
    n.map fun n => -(n : Int)
  | _ => none

/-- What a text stands for as a whole number. -/
def integer? (text : List Char) : Option Found :=
  ((unsigned? UInt64.size text).map fun n => Found.integer n) <|>
  ((negative? (Nat.pow 2 63) text).map Found.integer) <|>
  ((unsigned? (Nat.pow 2 128) text).map fun n => Found.wideInteger n) <|>
  ((negative? (Nat.pow 2 127) text).map Found.wideInteger)

/-- The decimal digits at the start of a text, and the rest. -/
def decimalRun (text : List Char) : List Nat × List Char := digitRun 10 text

/-- The exponent of a decimal number, zero without one. -/
def decimalExponent? : List Char → Option Int
  | [] => some 0
  | e :: rest =>
    if e = 'e' || e = 'E' then
      match decimalRun (dropSign rest) with
      | (d :: ds, []) =>
        let n : Int := numberOf 10 (d :: ds)
        some (if rest.head? = some '-' then -n else n)
      | _ => none
    else none

/-- The number that a text spells with digits, a point and an exponent. Digits may be missing on one
side of the point. -/
def decimal? (text : List Char) : Option Binary64 := do
  let (whole, rest) := decimalRun (dropSign text)
  let (fraction, rest) := match rest with
    | '.' :: rest => decimalRun rest
    | _ => ([], rest)
  guard (!whole.isEmpty || !fraction.isEmpty)
  let e ← decimalExponent? rest
  return Binary64.ofDecimal (text.head? = some '-') (numberOf 10 (whole ++ fraction))
    (e - fraction.length)

/-- The number that a text stands for. Infinities and the undefined number have names of their own,
and a decimal number that is too large is none. -/
def float? (text : List Char) : Option Binary64 :=
  let body := dropPlus text
  if body.length < text.length && hasSign body then none
  else if body = ".inf".toList || body = ".Inf".toList || body = ".INF".toList then
    some (.infinity false)
  else if text = "-.inf".toList || text = "-.Inf".toList || text = "-.INF".toList then
    some (.infinity true)
  else if text = ".nan".toList || text = ".NaN".toList || text = ".NAN".toList then some .undefined
  else (decimal? body).filter Binary64.isFinite

/-- What a plain scalar stands for. -/
def meaning (text : List Char) : Found :=
  if text.isEmpty || isNothing text then .nothing
  else match boolean? text with
    | some b => .boolean b
    | none => match integer? text with
      | some found => found
      | none =>
        match if isPaddedDigits text then none else float? text with
        | some x => .float x
        | none => .text (String.ofList text)

end NodeScrape.Yaml
