import NodeScrape.Text.Scan
import NodeScrape.Yaml.Cursor

/-!
# The text of YAML scalars

How a scalar is written is one thing and the text that it stands for another: lines are folded,
escapes replaced and indentation dropped. Each function starts at a scalar and gives its text and
the place behind it.
-/

namespace NodeScrape.Yaml

open NodeScrape.Text (digitValue?)

/-- How a scalar is written, as far as it matters for its meaning. -/
inductive Style where
  /-- Without any marks. -/
  | plain
  /-- As an indented block whose lines are kept. -/
  | literal
  /-- Between quotes or as a folded block. -/
  | other
  deriving DecidableEq, Repr

/-- The blanks and line ends between two parts of a scalar. -/
structure Gap where
  /-- The blanks on the line, before any line end. -/
  blanks : List Char := []
  /-- The first line end. -/
  first : List Char := []
  /-- The other line ends. -/
  others : List Char := []
  /-- Whether a line has ended. -/
  broken : Bool := false
  deriving DecidableEq, Repr

namespace Gap

/-- What a gap stands for: one line end folds into a space, more keep all but the first. -/
def text (g : Gap) : List Char :=
  if !g.broken then g.blanks
  else if g.first = ['\n'] then if g.others.isEmpty then [' '] else g.others
  else g.first ++ g.others

/-- Goes over blanks and line ends. A tab before the column `indent` of a later line is refused. -/
def scan (indent : Nat) : Nat → Gap → Cursor → Option (Gap × Cursor)
  | 0, gap, c => some (gap, c)
  | fuel + 1, gap, c =>
    match c.rest with
    | d :: _ =>
      if isBlank d then
        if gap.broken && d = '\t' && c.column < indent then none
        else if gap.broken then scan indent fuel gap (c.advance 1)
        else scan indent fuel { gap with blanks := gap.blanks ++ [d] } (c.advance 1)
      else if isBreak d then
        let (kept, c) := c.takeBreak
        if gap.broken then scan indent fuel { gap with others := gap.others ++ kept } c
        else scan indent fuel { gap with blanks := [], first := kept, broken := true } c
      else some (gap, c)
    | [] => some (gap, c)

end Gap

/-- The character that a short escape stands for. -/
def shortEscape? (c : Char) : Option Char :=
  match c with
  | '0' => some '\x00'
  | 'a' => some '\x07'
  | 'b' => some '\x08'
  | 't' => some '\t'
  | '\t' => some '\t'
  | 'n' => some '\n'
  | 'v' => some '\x0b'
  | 'f' => some '\x0c'
  | 'r' => some '\r'
  | 'e' => some '\x1b'
  | ' ' => some ' '
  | '"' => some '"'
  | '/' => some '/'
  | '\\' => some '\\'
  | 'N' => some '\u0085'
  | '_' => some '\u00a0'
  | 'L' => some '\u2028'
  | 'P' => some '\u2029'
  | _ => none

/-- The number of hexadecimal digits of an escape by code point. -/
def escapeWidth? (c : Char) : Option Nat :=
  if c = 'x' then some 2 else if c = 'u' then some 4 else if c = 'U' then some 8 else none

/-- The character of an escape, and the number of characters behind the backslash. -/
def escape? (rest : List Char) : Option (Char × Nat) := do
  let c ← rest.head?
  match escapeWidth? c with
  | some width =>
    let digits ← ((rest.drop 1).take width).mapM (digitValue? 16)
    guard (digits.length = width)
    let code := Text.numberOf 16 digits
    guard (!(0xd800 ≤ code && code ≤ 0xdfff) && code ≤ 0x10ffff)
    return (Char.ofNat code, width + 1)
  | none => return (← shortEscape? c, 1)

/-- A quoted scalar from behind its opening quote; `text` is what has been read, in reverse. -/
def quotedFrom (single : Bool) : Nat → List Char → Cursor → Option (List Char × Cursor)
  | 0, _, _ => none
  | fuel + 1, text, c =>
    if c.atDocumentMarker then none
    else match c.rest with
      | [] => none
      | d :: after =>
        if isBlankOrBreak d then do
          let (gap, c) ← Gap.scan 0 c.rest.length {} c
          quotedFrom single fuel (gap.text.reverse ++ text) c
        else if single && d = '\'' then
          if after.head? = some '\'' then quotedFrom single fuel ('\'' :: text) (c.advance 2)
          else some (text.reverse, c.advance 1)
        else if !single && d = '"' then some (text.reverse, c.advance 1)
        else if !single && d = '\\' then
          if after.head?.any isBreak then do
            let c := (c.advance 1).skipBreak
            let (gap, c) ← Gap.scan 0 c.rest.length { broken := true } c
            quotedFrom single fuel (gap.others.reverse ++ text) c
          else do
            let (e, n) ← escape? after
            quotedFrom single fuel (e :: text) (c.advance (n + 1))
        else quotedFrom single fuel (d :: text) (c.advance 1)

/-- A quoted scalar. -/
def quoted (single : Bool) (c : Cursor) : Option (List Char × Cursor) :=
  quotedFrom single c.rest.length [] (c.advance 1)

/-- A plain scalar from a place within it; `gap` is what has been gone over since its last character
and is kept only if another one follows. Gives also whether a line end was gone over at its end. -/
def plainFrom (flow : Bool) (indent : Nat) :
    Nat → List Char → Gap → Cursor → Option (List Char × Bool × Cursor)
  | 0, _, _, _ => none
  | fuel + 1, text, gap, c =>
    let stop := some (text.reverse, gap.broken, c)
    if c.atDocumentMarker then stop
    else match c.rest with
      | [] => stop
      | d :: after =>
        if isBlankOrBreak d then do
          let (gap, c) ← Gap.scan indent c.rest.length {} c
          if c.peek 0 = some '#' then some (text.reverse, gap.broken, c)
          else if !flow && c.column < indent then some (text.reverse, gap.broken, c)
          else plainFrom flow indent fuel text gap c
        else if flow && d = ':' && after.head?.any (fun e => isFlowIndicator e || e = '?') then none
        else if d = ':' && after.head?.all isBlankOrBreak then stop
        else if flow && isFlowIndicator d then stop
        else plainFrom flow indent fuel (d :: gap.text.reverse ++ text) {} (c.advance 1)

/-- A plain scalar, in a collection whose entries start at a column less than `indent`. -/
def plain (flow : Bool) (indent : Nat) (c : Cursor) : Option (List Char × Bool × Cursor) :=
  plainFrom flow indent (2 * c.rest.length + 2) [] {} c

/-- What becomes of the line ends at the end of a block. -/
inductive Chomping where
  /-- All are dropped. -/
  | strip
  /-- The first is kept. -/
  | clip
  /-- All are kept. -/
  | keep
  deriving DecidableEq, Repr

/-- The header of a block: chomping and added indentation, in either order. -/
def blockHeader (c : Cursor) : Option (Chomping × Option Nat × Cursor) := do
  let sign (c : Cursor) : Option Chomping × Cursor :=
    if c.peek 0 = some '+' then (some .keep, c.advance 1)
    else if c.peek 0 = some '-' then (some .strip, c.advance 1)
    else (none, c)
  let digit (c : Cursor) : Option (Option Nat × Cursor) :=
    match (c.peek 0).bind (digitValue? 10) with
    | some 0 => none
    | some n => some (some n, c.advance 1)
    | none => some (none, c)
  match sign c with
  | (some chomping, c) =>
    let (indent, c) ← digit c
    return (chomping, indent, c)
  | (none, c) =>
    let (indent, c) ← digit c
    let (chomping, c) := if indent.isSome then sign c else (none, c)
    return (chomping.getD .clip, indent, c)

/-- Goes over empty lines and the indentation of the next one. As long as `indent` is not known, all
spaces count as indentation. Gives the line ends and the greatest column reached. -/
def blockBreaks (indent : Option Nat) :
    Nat → List Char → Nat → Cursor → Option (List Char × Nat × Cursor)
  | 0, breaks, widest, c => some (breaks, widest, c)
  | fuel + 1, breaks, widest, c =>
    let spaces := (c.rest.takeWhile (· = ' ')).length
    let c := c.advance (match indent with
      | some n => min spaces (n - c.column)
      | none => spaces)
    let widest := max widest c.column
    if indent.all (c.column < ·) && c.peek 0 = some '\t' then none
    else if (c.peek 0).any isBreak then
      let (kept, c) := c.takeBreak
      blockBreaks indent fuel (breaks ++ kept) widest c
    else some (breaks, widest, c)

/-- The lines of a block. `pending` is the line end before the current line and `breaks` the empty
lines behind it; `blank` tells whether the last line began with a blank. -/
def blockLines (folded : Bool) (indent : Nat) : Nat → List Char → List Char → List Char → Bool →
    Cursor → Option (List Char × List Char × List Char × Cursor)
  | 0, text, pending, breaks, _, c => some (text, pending, breaks, c)
  | fuel + 1, text, pending, breaks, blank, c =>
    if c.column = indent && !c.rest.isEmpty then do
      let startsBlank := (c.peek 0).any isBlank
      let joint :=
        if folded && pending.head? = some '\n' && !blank && !startsBlank then
          if breaks.isEmpty then [' '] else []
        else pending
      let line := c.rest.takeWhile (fun d => !isBreak d)
      let (pending, c) := (c.advance line.length).takeBreak
      let text := text ++ joint ++ breaks ++ line
      let (breaks, _, c) ← blockBreaks (some indent) (c.rest.length + 1) [] 0 c
      blockLines folded indent fuel text pending breaks startsBlank c
    else some (text, pending, breaks, c)

/-- A block scalar in a collection at the column `parent`, or in none. -/
def block (folded : Bool) (parent : Option Nat) (c : Cursor) : Option (List Char × Cursor) := do
  let (chomping, added, c) ← blockHeader (c.advance 1)
  let c := (c.skipWhile isBlank).skipComment
  guard c.atLineEnd
  let c := c.skipBreak
  let given := added.map fun n => parent.getD 0 + n
  let (breaks, widest, c) ← blockBreaks given (c.rest.length + 1) [] 0 c
  let least := (parent.map (· + 1)).getD 0
  let indent := given.getD (max (max widest least) 1)
  let (text, pending, breaks, c) ←
    blockLines folded indent (c.rest.length + 1) [] [] breaks false c
  let ending := match chomping with
    | .strip => []
    | .clip => pending
    | .keep => pending ++ breaks
  return (text ++ ending, c)

end NodeScrape.Yaml
