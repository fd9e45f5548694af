/-!
# Paths

A path is text in which slashes part the components. Empty components count for nothing, nor does a
single dot unless it comes first.
-/

namespace NodeScrape

/-- A path. -/
structure Path where
  /-- Its text. -/
  text : String
  deriving DecidableEq, Repr

namespace Path

/-- Whether a path starts at the root. -/
def isAbsolute (p : Path) : Bool := p.text.toList.head? = some '/'

/-- Drops slashes and lone dots from the end of a path, which is given in reverse. -/
def trimReversed : List Char → List Char
  | '/' :: rest => trimReversed rest
  | ['.'] => []
  | '.' :: '/' :: rest => trimReversed rest
  | rest => rest

/-- What a path starts with, the root or a dot of its own, and what follows. -/
def splitStart : List Char → List Char × List Char
  | '/' :: rest => (['/'], rest)
  | ['.'] => (['.'], [])
  | '.' :: '/' :: rest => (['.'], '/' :: rest)
  | rest => ([], rest)

/-- A path without its last component; empty if there is nothing to drop. -/
def parent (p : Path) : Path :=
  let (start, body) := splitStart p.text.toList
  match trimReversed body.reverse with
  | [] => ⟨""⟩
  | component =>
    ⟨String.ofList (start ++ (trimReversed (component.dropWhile (· ≠ '/'))).reverse)⟩

/-- A path as seen from a directory. One that starts at the root stays as it is. -/
def join (directory p : Path) : Path :=
  if p.isAbsolute then p
  else if directory.text.isEmpty then p
  else if directory.text.toList.getLast? = some '/' then ⟨directory.text ++ p.text⟩
  else ⟨directory.text ++ "/" ++ p.text⟩

/-- The parts of a path between its slashes. -/
def components (p : Path) : List String := (p.text.splitOn "/")

end Path

end NodeScrape
