/-!
# Positions in YAML text

The classes of characters that the grammar of YAML distinguishes, and a place in a text with its
line and column.
-/

namespace NodeScrape.Yaml

/-- A blank within a line. -/
def isBlank (c : Char) : Bool := c = ' ' || c = '\t'

/-- A character that ends a line. -/
def isBreak (c : Char) : Bool :=
  c = '\n' || c = '\r' || c = '\u0085' || c = '\u2028' || c = '\u2029'

/-- A blank or a line end. -/
def isBlankOrBreak (c : Char) : Bool := isBlank c || isBreak c

/-- A character of names. -/
def isWord (c : Char) : Bool := c.isAlphanum || c = '_' || c = '-'

/-- An indicator of flow collections. -/
def isFlowIndicator (c : Char) : Bool := c = ',' || c = '[' || c = ']' || c = '\x7b' || c = '\x7d'

/-- The characters that a text may hold: no controls except tab and line ends. -/
def isAllowed (c : Char) : Bool :=
  let code := c.toNat
  code = 0x09 || code = 0x0a || code = 0x0d || (0x20 ≤ code && code ≤ 0x7e) || code = 0x85 ||
    (0xa0 ≤ code && code ≤ 0xd7ff) || (0xe000 ≤ code && code ≤ 0xfffd) || 0x10000 ≤ code

/-- The mark of the byte order. It has no meaning at the start of a line, and is a character like any
other elsewhere. -/
def byteOrderMark : Char := '\ufeff'

/-- A place in a text. -/
structure Cursor where
  /-- What follows. -/
  rest : List Char
  /-- The number of characters before. -/
  index : Nat := 0
  /-- The number of lines before. -/
  line : Nat := 0
  /-- The number of characters before on the line. -/
  column : Nat := 0
  deriving DecidableEq, Repr

namespace Cursor

/-- The character that follows at a distance. -/
def peek (c : Cursor) (n : Nat) : Option Char := c.rest[n]?

/-- Moves over characters of a line. -/
def advance (c : Cursor) (n : Nat) : Cursor :=
  { c with rest := c.rest.drop n, index := c.index + n, column := c.column + n }

/-- Moves over the characters of a line that satisfy a predicate. -/
def skipWhile (c : Cursor) (p : Char → Bool) : Cursor := c.advance (c.rest.takeWhile p).length

/-- Whether a blank, a line end or the end of the text stands at a distance. -/
def endsWordAt (c : Cursor) (n : Nat) : Bool := (c.peek n).all isBlankOrBreak

/-- Whether a line or the text ends here. -/
def atLineEnd (c : Cursor) : Bool := (c.peek 0).all isBreak

/-- Moves over a line end, if one stands here, and gives the break as it is kept: one line feed for
the usual ones. -/
def takeBreak (c : Cursor) : List Char × Cursor :=
  let behind (n : Nat) (kept : List Char) : List Char × Cursor :=
    (kept, { rest := c.rest.drop n, index := c.index + n, line := c.line + 1, column := 0 })
  match c.rest with
  | '\r' :: '\n' :: _ => behind 2 ['\n']
  | d :: _ =>
    if d = '\n' ∨ d = '\r' ∨ d = '\u0085' then behind 1 ['\n']
    else if d = '\u2028' ∨ d = '\u2029' then behind 1 [d]
    else ([], c)
  | [] => ([], c)

/-- Moves over a line end, if one stands here. -/
def skipBreak (c : Cursor) : Cursor := c.takeBreak.2

/-- Moves over a byte order mark at the start of a line. -/
def skipMark (c : Cursor) : Cursor :=
  if c.column = 0 && c.peek 0 = some byteOrderMark then c.advance 1 else c

/-- Moves over a comment. -/
def skipComment (c : Cursor) : Cursor :=
  if c.peek 0 = some '#' then c.skipWhile (fun d => !isBreak d) else c

/-- Whether a marker of three characters stands alone at the start of the line. -/
def atMarker (c : Cursor) (mark : Char) : Bool :=
  c.column = 0 && c.rest.take 3 = [mark, mark, mark] && c.endsWordAt 3

/-- Whether a document begins or ends here. -/
def atDocumentMarker (c : Cursor) : Bool := c.atMarker '-' || c.atMarker '.'

end Cursor

end NodeScrape.Yaml
