import NodeScrape.Yaml.ScalarText

/-!
# YAML tokens

A text is cut into tokens from left to right. Whether a simple key begins somewhere is known only
when its colon is met, so a possible key holds a slot among the tokens, which is filled later or
stays empty. Tokens behind a slot that is still open when the text turns out to be malformed are
never handed on.
-/

namespace NodeScrape.Yaml

/-- A token. -/
inductive Token where
  | streamEnd
  | versionDirective (major minor : Nat)
  | tagDirective (handle target : List Char)
  | documentStart
  | documentEnd
  | blockSequenceStart
  | blockMappingStart
  | blockEnd
  | flowSequenceStart
  | flowSequenceEnd
  | flowMappingStart
  | flowMappingEnd
  | blockEntry
  | flowEntry
  | key
  | value
  | alias (name : List Char)
  | anchor (name : List Char)
  | tag (handle suffix : List Char)
  | scalar (text : List Char) (style : Style)
  deriving DecidableEq, Repr

/-- A place among the tokens. -/
inductive Entry where
  /-- A token. -/
  | token (t : Token)
  /-- The place before a possible key. -/
  | slot (id : Nat)
  deriving DecidableEq, Repr

/-- A possible simple key. -/
structure PossibleKey where
  /-- Its slot. -/
  slot : Nat
  /-- Whether nothing else than a key can stand there. -/
  required : Bool
  index : Nat
  line : Nat
  column : Nat
  deriving DecidableEq, Repr

/-- What the scanner knows between two tokens. -/
structure Scanner where
  cursor : Cursor
  /-- The entries so far, the last one first. -/
  entries : List Entry := []
  /-- What has been put into slots. -/
  filled : List (Nat × List Token) := []
  /-- The number of slots. -/
  slots : Nat := 0
  /-- The columns of the open block collections, the innermost first. -/
  indents : List Nat := []
  /-- Whether a simple key may begin here. -/
  keyAllowed : Bool := true
  /-- The possible key of each open flow collection, the innermost first, and of the block. -/
  keys : List (Option PossibleKey) := [none]
  deriving Repr

namespace Scanner

/-- Whether a flow collection is open. -/
def inFlow (s : Scanner) : Bool := 1 < s.keys.length

/-- Whether the innermost block collection starts before a column. -/
def indentBelow (s : Scanner) (column : Nat) : Bool := s.indents.head?.all (· < column)

/-- Adds a token. -/
def push (s : Scanner) (t : Token) : Scanner := { s with entries := .token t :: s.entries }

/-- Moves on. -/
def advance (s : Scanner) (n : Nat) : Scanner := { s with cursor := s.cursor.advance n }

/-- Closes the block collections that start behind a column, or all of them. -/
def unroll (column : Option Nat) (s : Scanner) : Scanner :=
  if s.inFlow then s
  else
    let closed := s.indents.takeWhile fun i => column.all (· < i)
    { s with
      indents := s.indents.drop closed.length
      entries := closed.map (fun _ => .token .blockEnd) ++ s.entries }

/-- Opens a block collection here unless one is open at this column. -/
def roll (start : Token) (s : Scanner) : Scanner :=
  if s.inFlow || !s.indentBelow s.cursor.column then s
  else { s.push start with indents := s.cursor.column :: s.indents }

/-- Gives up possible keys that lie on an earlier line or too far back. A required one must not be
given up. -/
def dropStale (s : Scanner) : Option Scanner := do
  let keys ← s.keys.mapM fun key => match key with
    | some k =>
      if k.line < s.cursor.line || k.index + 1024 < s.cursor.index then
        if k.required then none else some none
      else some (some k)
    | none => some none
  return { s with keys }

/-- Gives up the possible key of the innermost collection. -/
def dropKey (s : Scanner) : Option Scanner :=
  match s.keys with
  | some k :: keys => if k.required then none else some { s with keys := none :: keys }
  | _ => some s

/-- Notes that a key may begin here. -/
def saveKey (s : Scanner) : Option Scanner :=
  if s.keyAllowed then do
    let s ← s.dropKey
    let c := s.cursor
    let key : PossibleKey :=
      ⟨s.slots, !s.inFlow && s.indents.head? = some c.column, c.index, c.line, c.column⟩
    return { s with
      keys := some key :: s.keys.drop 1
      entries := .slot s.slots :: s.entries
      slots := s.slots + 1 }
  else some s

/-- Goes over byte order marks, blanks, comments and line ends. Tabs are blanks only where no key may
begin. -/
def skipToToken : Nat → Scanner → Scanner
  | 0, s => s
  | fuel + 1, s =>
    let blank (d : Char) : Bool := d = ' ' || ((s.inFlow || !s.keyAllowed) && d = '\t')
    let c := (s.cursor.skipMark.skipWhile blank).skipComment
    if (c.peek 0).any isBreak then
      skipToToken fuel { s with cursor := c.skipBreak, keyAllowed := s.keyAllowed || !s.inFlow }
    else { s with cursor := c }

/-- Takes the word that stands here. -/
def word (c : Cursor) : List Char × Cursor :=
  let w := c.rest.takeWhile isWord
  (w, c.advance w.length)

/-- The characters of tags, beside words. -/
def isTagChar (verbatim : Bool) (c : Char) : Bool :=
  isWord c || ";/?:@&=+$.!~*'()".toList.contains c ||
    (verbatim && (c = ',' || c = '[' || c = ']'))

/-- The number of octets of a character that begins with one. -/
def octetCount? (octet : Nat) : Option Nat :=
  if octet < 0x80 then some 1
  else if 0xc0 ≤ octet && octet < 0xe0 then some 2
  else if 0xe0 ≤ octet && octet < 0xf0 then some 3
  else if 0xf0 ≤ octet && octet < 0xf8 then some 4
  else none

/-- An octet written as a percent sign and two hexadecimal digits. -/
def escapedOctet? (rest : List Char) : Option Nat :=
  match rest with
  | '%' :: a :: b :: _ => do
    return (← Text.digitValue? 16 a) * 16 + (← Text.digitValue? 16 b)
  | _ => none

/-- Takes `count` octets that continue a character. -/
def escapedOctets : Nat → Cursor → Option (List Nat × Cursor)
  | 0, c => some ([], c)
  | count + 1, c => do
    let octet ← escapedOctet? c.rest
    guard (0x80 ≤ octet && octet < 0xc0)
    let (octets, c) ← escapedOctets count (c.advance 3)
    return (octet :: octets, c)

/-- Takes a character written by its octets. Octets that make no character stand for the
replacement character. -/
def escapedChar (c : Cursor) : Option (Char × Cursor) := do
  let first ← escapedOctet? c.rest
  let count ← octetCount? first
  let (others, c) ← escapedOctets (count - 1) (c.advance 3)
  let bytes := (first :: others).map UInt8.ofNat
  let char := match String.fromUTF8? ⟨bytes.toArray⟩ with
    | some text => text.toList.headD '\ufffd'
    | none => '\ufffd'
  return (char, c)

/-- Takes the characters of a tag. -/
def tagChars (verbatim : Bool) : Nat → Cursor → Option (List Char × Cursor)
  | 0, c => some ([], c)
  | fuel + 1, c =>
    match c.rest with
    | d :: _ =>
      if d = '%' then do
        let (e, c) ← escapedChar c
        let (chars, c) ← tagChars verbatim fuel c
        return (e :: chars, c)
      else if isTagChar verbatim d then do
        let (chars, c) ← tagChars verbatim fuel (c.advance 1)
        return (d :: chars, c)
      else some ([], c)
    | [] => some ([], c)

/-- Takes a tag handle: a word between exclamation marks, of which the second may be missing. -/
def tagHandle (c : Cursor) : Option (List Char × Cursor) := do
  guard (c.peek 0 = some '!')
  let (w, c) := word (c.advance 1)
  if c.peek 0 = some '!' then return ('!' :: w ++ ['!'], c.advance 1)
  else return ('!' :: w, c)

/-- Takes the rest of a directive's line. -/
def directiveEnd (c : Cursor) : Option Cursor := do
  let c := (c.skipWhile isBlank).skipComment
  guard c.atLineEnd
  return c.skipBreak

/-- Takes a version number of at most nine digits. -/
def versionNumber (c : Cursor) : Option (Nat × Cursor) := do
  let (digits, _) := Text.digitRun 10 c.rest
  guard (!digits.isEmpty && digits.length ≤ 9)
  return (Text.numberOf 10 digits, c.advance digits.length)

/-- Takes a directive. -/
def directive (c : Cursor) : Option (Token × Cursor) := do
  let (name, c) := word (c.advance 1)
  guard (!name.isEmpty && c.endsWordAt 0)
  let c := c.skipWhile isBlank
  if name = "YAML".toList then
    let (major, c) ← versionNumber c
    guard (c.peek 0 = some '.')
    let (minor, c) ← versionNumber (c.advance 1)
    return (.versionDirective major minor, ← directiveEnd c)
  else if name = "TAG".toList then
    let (handle, c) ← tagHandle c
    guard (handle = ['!'] || handle.getLast? = some '!')
    guard ((c.peek 0).any isBlank)
    let c := c.skipWhile isBlank
    let (target, c) ← tagChars true c.rest.length c
    guard (!target.isEmpty && c.endsWordAt 0)
    return (.tagDirective handle target, ← directiveEnd c)
  else none

/-- Takes the name of an anchor or alias. -/
def anchorName (c : Cursor) : Option (List Char × Cursor) := do
  let (name, c) := word (c.advance 1)
  guard (!name.isEmpty)
  guard (c.endsWordAt 0 || (c.peek 0).any "?:,]\x7d%@`".toList.contains)
  return (name, c)

/-- Takes a tag: verbatim between angle brackets, or a handle and a suffix. What looks like a handle
without its second mark belongs to the suffix of the primary handle; the mark alone has no handle. -/
def tag (flow : Bool) (c : Cursor) : Option (Token × Cursor) := do
  let (token, c) ←
    if c.peek 1 = some '<' then do
      let (suffix, c) ← tagChars true c.rest.length (c.advance 2)
      guard (!suffix.isEmpty && c.peek 0 = some '>')
      pure (Token.tag [] suffix, c.advance 1)
    else do
      let (handle, c) ← tagHandle c
      let (suffix, c) ← tagChars false c.rest.length c
      if 1 < handle.length && handle.getLast? = some '!' then
        guard (!suffix.isEmpty)
        pure (Token.tag handle suffix, c)
      else
        let suffix := handle.drop 1 ++ suffix
        pure (if suffix.isEmpty then Token.tag [] ['!'] else Token.tag ['!'] suffix, c)
  guard (c.endsWordAt 0 || (flow && c.peek 0 = some ','))
  return (token, c)

/-- Adds a token that may be a key, and moves behind it. -/
def pushKeyable (s : Scanner) (t : Token) (c : Cursor) : Scanner :=
  { s.push t with cursor := c, keyAllowed := false }

/-- An opening bracket. -/
def openFlow (t : Token) (s : Scanner) : Option Scanner := do
  let s ← s.saveKey
  return { (s.push t).advance 1 with keys := none :: s.keys, keyAllowed := true }

/-- A closing bracket. -/
def closeFlow (t : Token) (s : Scanner) : Option Scanner := do
  let s ← s.dropKey
  let keys := if s.inFlow then s.keys.drop 1 else s.keys
  return { (s.push t).advance 1 with keys, keyAllowed := false }

/-- A comma. -/
def flowEntry (s : Scanner) : Option Scanner := do
  let s ← s.dropKey
  return { (s.push .flowEntry).advance 1 with keyAllowed := true }

/-- A dash before a block entry. -/
def blockEntry (s : Scanner) : Option Scanner := do
  guard (s.inFlow || s.keyAllowed)
  let s ← (s.roll .blockSequenceStart).dropKey
  return { (s.push .blockEntry).advance 1 with keyAllowed := true }

/-- A question mark before a key. -/
def complexKey (s : Scanner) : Option Scanner := do
  guard (s.inFlow || s.keyAllowed)
  let s ← (s.roll .blockMappingStart).dropKey
  return { (s.push .key).advance 1 with keyAllowed := !s.inFlow }

/-- A colon. It fills the slot of the possible key before it, whose column may open a mapping. -/
def keyEnd (s : Scanner) : Option Scanner :=
  match s.keys with
  | some k :: keys =>
    let opens := !s.inFlow && s.indentBelow k.column
    let tokens := if opens then [Token.blockMappingStart, .key] else [.key]
    let s := { s with
      filled := (k.slot, tokens) :: s.filled
      indents := if opens then k.column :: s.indents else s.indents
      keys := none :: keys
      keyAllowed := false }
    some ((s.push .value).advance 1)
  | _ => do
    guard (s.inFlow || s.keyAllowed)
    let s := s.roll .blockMappingStart
    return { (s.push .value).advance 1 with keyAllowed := !s.inFlow }

/-- A marker of a document's start or end. -/
def marker (t : Token) (s : Scanner) : Option Scanner := do
  let s ← (s.unroll none).dropKey
  return { (s.push t).advance 3 with keyAllowed := false }

/-- The end of the text, which ends its last line. -/
def finish (s : Scanner) : Option Scanner := do
  let s ← (s.unroll none).dropKey
  let cursor :=
    if s.cursor.column = 0 then s.cursor
    else { s.cursor with line := s.cursor.line + 1, column := 0 }
  return { s.push .streamEnd with cursor, keyAllowed := false }

/-- Whether a plain scalar may begin with a character. -/
def startsPlain (s : Scanner) (d : Char) : Bool :=
  let next := s.cursor.peek 1
  !(isBlankOrBreak d || "-?:,[]\x7b\x7d#&*!|>'\"%@`".toList.contains d) ||
    (d = '-' && !next.any isBlank) ||
    (!s.inFlow && (d = '?' || d = ':') && !s.cursor.endsWordAt 1)

/-- Takes the next token. -/
def token (s : Scanner) : Option Scanner := do
  let s ← (skipToToken (s.cursor.rest.length + 1) s).dropStale
  let s := s.unroll (some s.cursor.column)
  let c := s.cursor
  match c.rest with
  | [] => s.finish
  | d :: _ =>
    if c.column = 0 && d = '%' then
      let s ← (s.unroll none).dropKey
      let (t, c) ← directive c
      return { s.push t with cursor := c, keyAllowed := false }
    else if c.atMarker '-' then s.marker .documentStart
    else if c.atMarker '.' then s.marker .documentEnd
    else if d = '[' then s.openFlow .flowSequenceStart
    else if d = '\x7b' then s.openFlow .flowMappingStart
    else if d = ']' then s.closeFlow .flowSequenceEnd
    else if d = '\x7d' then s.closeFlow .flowMappingEnd
    else if d = ',' then s.flowEntry
    else if d = '-' && c.endsWordAt 1 then s.blockEntry
    else if d = '?' && (s.inFlow || c.endsWordAt 1) then s.complexKey
    else if d = ':' && (s.inFlow || c.endsWordAt 1) then s.keyEnd
    else if d = '*' then
      let s ← s.saveKey
      let (name, c) ← anchorName c
      return s.pushKeyable (.alias name) c
    else if d = '&' then
      let s ← s.saveKey
      let (name, c) ← anchorName c
      return s.pushKeyable (.anchor name) c
    else if d = '!' then
      let s ← s.saveKey
      let (t, c) ← tag s.inFlow c
      return s.pushKeyable t c
    else if (d = '|' || d = '>') && !s.inFlow then
      let s ← s.dropKey
      let (text, c) ← block (d = '>') s.indents.head? c
      let style := if d = '|' then Style.literal else .other
      return { s.push (.scalar text style) with cursor := c, keyAllowed := true }
    else if d = '\'' || d = '"' then
      let s ← s.saveKey
      let (text, c) ← quoted (d = '\'') c
      return s.pushKeyable (.scalar text .other) c
    else if s.startsPlain d then
      let s ← s.saveKey
      let indent := (s.indents.head?.map (· + 1)).getD 0
      let (text, ended, c) ← plain s.inFlow indent c
      return { s.push (.scalar text .plain) with cursor := c, keyAllowed := ended }
    else none

/-- Takes tokens up to the end of the text or to the place where it is malformed. -/
def run : Nat → Scanner → Scanner
  | 0, s => s
  | fuel + 1, s => match s.token with
    | some next => if next.entries.head? = some (.token .streamEnd) then next else run fuel next
    | none => s

/-- The tokens that can be handed on: those before the first slot that is still open. -/
def tokens (s : Scanner) : List Token :=
  let s := s.dropStale.getD s
  let isOpen (id : Nat) : Bool := s.keys.any fun key => key.any (·.slot = id)
  let ready := s.entries.reverse.takeWhile fun e => match e with
    | .slot id => !isOpen id
    | .token _ => true
  ready.flatMap fun e => match e with
    | .token t => [t]
    | .slot id => (s.filled.lookup id).getD []

end Scanner

/-- The tokens of a text, behind a byte order mark if it has one. They end with the end of the
stream unless the text is malformed. -/
def Token.ofText (text : List Char) : List Token :=
  let text := if text.head? = some byteOrderMark then text.drop 1 else text
  if text.all isAllowed then
    let scanner : Scanner := { cursor := { rest := text } }
    (Scanner.run (text.length + 2) scanner).tokens
  else []

end NodeScrape.Yaml
