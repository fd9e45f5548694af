/-!
# Scanners

A scanner takes something off the start of a text or refuses. The scanners here take single
characters and numbers.
-/

namespace NodeScrape.Text

/-- Takes a value off the start of a text, and leaves the rest. -/
abbrev Scan (α : Type) := List Char → Option (α × List Char)

/-- Takes one given character. -/
def scanChar (c : Char) : Scan Unit
  | d :: rest => if c = d then some ((), rest) else none
  | [] => none

/-- The value of a digit in a base of at most sixteen. -/
def digitValue? (base : Nat) (c : Char) : Option Nat :=
  let value :=
    if c.isDigit then c.toNat - '0'.toNat
    else if 'a' ≤ c ∧ c ≤ 'f' then c.toNat - 'a'.toNat + 10
    else if 'A' ≤ c ∧ c ≤ 'F' then c.toNat - 'A'.toNat + 10
    else base
  if value < base then some value else none

/-- The digits at the start of a text by value, and the rest. -/
def digitRun (base : Nat) : List Char → List Nat × List Char
  | [] => ([], [])
  | c :: rest => match digitValue? base c with
    | some d => let (ds, rest) := digitRun base rest; (d :: ds, rest)
    | none => ([], c :: rest)

/-- The number that digits spell in a base. -/
def numberOf (base : Nat) (digits : List Nat) : Nat := digits.foldl (fun n d => n * base + d) 0

/-- Takes a number below `bound`, with all the digits that stand there. -/
def scanNumber (base bound : Nat) : Scan Nat := fun text =>
  let (digits, rest) := digitRun base text
  if digits.isEmpty then none
  else
    let n := numberOf base digits
    if n < bound then some (n, rest) else none

end NodeScrape.Text
