import NodeScrape.Yaml.Token

/-!
# YAML documents

The tokens of a text make a tree of scalars, sequences and mappings. Where the text is malformed the
tree is cut: nothing behind a cut is ever looked at, so what stands before it keeps its meaning. An
anchored node has a number, and an alias refers to it.
-/

namespace NodeScrape.Yaml

/-- What stands before a node. -/
structure Properties where
  /-- The number of its anchor. -/
  anchor : Option Nat := none
  /-- Its tag, written out. -/
  tag : Option (List Char) := none
  deriving DecidableEq, Repr

/-- A node of a document. -/
inductive Node where
  /-- A scalar. -/
  | scalar (properties : Properties) (text : List Char) (style : Style)
  /-- A list of nodes, and whether it comes to its end. -/
  | sequence (properties : Properties) (items : List Node) (closed : Bool)
  /-- A list of keys with their values, and whether it comes to its end. -/
  | mapping (properties : Properties) (pairs : List (Node × Node)) (closed : Bool)
  /-- A reference to the node with an anchor. -/
  | alias (anchor : Nat)
  /-- The end of what can be read. -/
  | cut

/-- The node that stands where nothing is written. -/
def Node.empty : Node := .scalar {} [] .plain

/-- What is known while nodes are made. -/
structure Maker where
  /-- The tokens that are left. -/
  tokens : List Token
  /-- The targets of tag handles. -/
  handles : List (List Char × List Char)
  /-- The anchors so far by name. -/
  anchors : List (List Char × Nat) := []

namespace Maker

/-- Passes over a token. -/
def skip (m : Maker) : Maker := { m with tokens := m.tokens.drop 1 }

/-- Numbers an anchor by how many names there are, so a name used again may share its number with
the name that follows. -/
def bind (m : Maker) (name : List Char) : Nat × Maker :=
  let id := m.anchors.length
  (id, { m with anchors := (name, id) :: m.anchors.filter (·.1 ≠ name) })

/-- A tag written out. -/
def expand? (m : Maker) (handle suffix : List Char) : Option (List Char) :=
  if handle.isEmpty then some suffix
  else (m.handles.lookup handle).map (· ++ suffix)

/-- Takes the anchor and the tag before a node, in either order. -/
def properties (m : Maker) : Option (Properties × Maker) :=
  let withTag (handle suffix : List Char) (anchor : Option (List Char)) (m : Maker) :=
    (m.expand? handle suffix).map fun tag => (anchor, some tag, m)
  let found : Option (Option (List Char) × Option (List Char) × Maker) :=
    match m.tokens with
    | .anchor name :: .tag handle suffix :: _ => withTag handle suffix (some name) m.skip.skip
    | .anchor name :: _ => some (some name, none, m.skip)
    | .tag handle suffix :: .anchor name :: _ => withTag handle suffix (some name) m.skip.skip
    | .tag handle suffix :: _ => withTag handle suffix none m.skip
    | _ => some (none, none, m)
  found.map fun (name, tag, m) => match name with
    | some name =>
      let (id, m) := m.bind name
      ({ anchor := some id, tag }, m)
    | none => ({ tag }, m)

/-- Whether a token begins an entry of a block mapping or ends it. -/
def endsBlockItem : Token → Bool
  | .key => true
  | .value => true
  | .blockEnd => true
  | _ => false

mutual

/-- A node. In a block, block collections may stand here, and in a mapping a sequence whose entries
are not indented. -/
def node : Nat → (inBlock inMapping : Bool) → Maker → Node × Maker
  | 0, _, _, m => (.cut, m)
  | fuel + 1, inBlock, inMapping, m =>
    match m.tokens with
    | .alias name :: _ => match m.anchors.lookup name with
      | some id => (.alias id, m.skip)
      | none => (.cut, { m with tokens := [] })
    | _ => match m.properties with
      | none => (.cut, { m with tokens := [] })
      | some (props, m) => match m.tokens with
        | .scalar text style :: _ =>
          let tag := if props.tag = some ['!'] then none else props.tag
          (.scalar { props with tag } text style, m.skip)
        | .flowSequenceStart :: _ =>
          let (items, closed, m) := flowItems fuel true m.skip
          (.sequence props items closed, m)
        | .flowMappingStart :: _ =>
          let (pairs, closed, m) := flowPairs fuel true m.skip
          (.mapping props pairs closed, m)
        | [] => (.cut, m)
        | token :: _ =>
          if token = .blockEntry && inMapping then
            let (items, closed, m) := bareItems fuel m
            (.sequence props items closed, m)
          else if token = .blockSequenceStart && inBlock then
            let (items, closed, m) := blockItems fuel m.skip
            (.sequence props items closed, m)
          else if token = .blockMappingStart && inBlock then
            let (pairs, closed, m) := blockPairs fuel m.skip
            (.mapping props pairs closed, m)
          else if props.anchor.isSome || props.tag.isSome then (.scalar props [] .plain, m)
          else (.cut, { m with tokens := [] })

/-- A node unless a token follows after which none can stand; then the node is empty. -/
def nodeUnless : Nat → (inBlock inMapping : Bool) → (Token → Bool) → Maker → Node × Maker
  | 0, _, _, _, m => (.cut, m)
  | fuel + 1, inBlock, inMapping, ends, m =>
    match m.tokens with
    | [] => (.cut, m)
    | token :: _ => if ends token then (.empty, m) else node fuel inBlock inMapping m

/-- The entries of an indented block sequence. -/
def blockItems : Nat → Maker → List Node × Bool × Maker
  | 0, m => ([], false, m)
  | fuel + 1, m =>
    match m.tokens with
    | .blockEntry :: _ =>
      let ends (t : Token) : Bool := t = .blockEntry || t = .blockEnd
      let (item, m) := nodeUnless fuel true false ends m.skip
      let (items, closed, m) := blockItems fuel m
      (item :: items, closed, m)
    | .blockEnd :: _ => ([], true, m.skip)
    | _ => ([], false, { m with tokens := [] })

/-- The entries of a block sequence in a mapping at the same column. -/
def bareItems : Nat → Maker → List Node × Bool × Maker
  | 0, m => ([], false, m)
  | fuel + 1, m =>
    match m.tokens with
    | .blockEntry :: _ =>
      let ends (t : Token) : Bool := t = .blockEntry || endsBlockItem t
      let (item, m) := nodeUnless fuel true false ends m.skip
      let (items, closed, m) := bareItems fuel m
      (item :: items, closed, m)
    | [] => ([], false, m)
    | _ => ([], true, m)

/-- The entries of a block mapping. -/
def blockPairs : Nat → Maker → List (Node × Node) × Bool × Maker
  | 0, m => ([], false, m)
  | fuel + 1, m =>
    match m.tokens with
    | .blockEnd :: _ => ([], true, m.skip)
    | .key :: _ =>
      let (key, m) := nodeUnless fuel true true endsBlockItem m.skip
      let (value, m) : Node × Maker := match m.tokens with
        | [] => (.cut, m)
        | .value :: _ => nodeUnless fuel true true endsBlockItem m.skip
        | _ => (.empty, m)
      let (pairs, closed, m) := blockPairs fuel m
      ((key, value) :: pairs, closed, m)
    | _ => ([], false, { m with tokens := [] })

/-- The entries of a flow sequence. A key makes a mapping of one pair. -/
def flowItems : Nat → (first : Bool) → Maker → List Node × Bool × Maker
  | 0, _, m => ([], false, m)
  | fuel + 1, first, m =>
    let comma := !first && m.tokens.head? = some .flowEntry
    match m.tokens with
    | [] => ([], false, m)
    | .flowSequenceEnd :: _ => ([], true, m.skip)
    | _ =>
      if !first && !comma then ([], false, { m with tokens := [] })
      else
        let m := if comma then m.skip else m
        match m.tokens with
        | [] => ([], false, m)
        | .flowSequenceEnd :: _ => ([], true, m.skip)
        | .key :: _ =>
          let m := m.skip
          let (key, m) : Node × Maker := match m.tokens with
            | [] => (.cut, m)
            | token :: _ =>
              if token = .value || token = .flowEntry || token = .flowSequenceEnd then
                (.empty, m.skip)
              else node fuel false false m
          let ends (t : Token) : Bool := t = .flowEntry || t = .flowSequenceEnd
          let (value, m) : Node × Maker := match m.tokens with
            | [] => (.cut, m)
            | .value :: _ => nodeUnless fuel false false ends m.skip
            | _ => (.empty, m)
          let (items, closed, m) := flowItems fuel false m
          (.mapping {} [(key, value)] true :: items, closed, m)
        | _ =>
          let (item, m) := node fuel false false m
          let (items, closed, m) := flowItems fuel false m
          (item :: items, closed, m)

/-- The entries of a flow mapping. A node without a key's mark is a key without a value. -/
def flowPairs : Nat → (first : Bool) → Maker → List (Node × Node) × Bool × Maker
  | 0, _, m => ([], false, m)
  | fuel + 1, first, m =>
    let comma := !first && m.tokens.head? = some .flowEntry
    match m.tokens with
    | [] => ([], false, m)
    | .flowMappingEnd :: _ => ([], true, m.skip)
    | _ =>
      if !first && !comma then ([], false, { m with tokens := [] })
      else
        let m := if comma then m.skip else m
        let ends (t : Token) : Bool := t = .flowEntry || t = .flowMappingEnd
        match m.tokens with
        | [] => ([], false, m)
        | .flowMappingEnd :: _ => ([], true, m.skip)
        | .key :: _ =>
          let (key, m) := nodeUnless fuel false false (fun t => t = .value || ends t) m.skip
          let (value, m) : Node × Maker := match m.tokens with
            | [] => (.cut, m)
            | .value :: _ => nodeUnless fuel false false ends m.skip
            | _ => (.empty, m)
          let (pairs, closed, m) := flowPairs fuel false m
          ((key, value) :: pairs, closed, m)
        | _ =>
          let (key, m) := node fuel false false m
          let (pairs, closed, m) := flowPairs fuel false m
          ((key, .empty) :: pairs, closed, m)

end

end Maker

mutual

/-- The anchored nodes in a node, in the order of the text. -/
def Node.anchored : Node → List (Nat × Node)
  | .scalar props text style => match props.anchor with
    | some id => [(id, .scalar props text style)]
    | none => []
  | .sequence props items closed =>
    (match props.anchor with
      | some id => [(id, .sequence props items closed)]
      | none => []) ++ anchoredItems items
  | .mapping props pairs closed =>
    (match props.anchor with
      | some id => [(id, .mapping props pairs closed)]
      | none => []) ++ anchoredPairs pairs
  | .alias _ => []
  | .cut => []

/-- The anchored nodes in a list. -/
def anchoredItems : List Node → List (Nat × Node)
  | [] => []
  | item :: rest => item.anchored ++ anchoredItems rest

/-- The anchored nodes in keys and values. -/
def anchoredPairs : List (Node × Node) → List (Nat × Node)
  | [] => []
  | (key, value) :: rest => key.anchored ++ value.anchored ++ anchoredPairs rest

end

mutual

/-- How many scalars, aliases, starts and ends a node consists of. -/
def Node.size : Node → Nat
  | .scalar _ _ _ => 1
  | .sequence _ items closed => sizeItems items + 1 + if closed then 1 else 0
  | .mapping _ pairs closed => sizePairs pairs + 1 + if closed then 1 else 0
  | .alias _ => 1
  | .cut => 0

/-- The size of a list. -/
def sizeItems : List Node → Nat
  | [] => 0
  | item :: rest => item.size + sizeItems rest

/-- The size of keys and values. -/
def sizePairs : List (Node × Node) → Nat
  | [] => 0
  | (key, value) :: rest => key.size + value.size + sizePairs rest

end

/-- A stream that is meant to hold one document. -/
structure Stream where
  /-- The root of the first document, none if the stream is empty. -/
  root : Option Node
  /-- Whether the stream ends well behind it. -/
  clean : Bool

namespace Stream

/-- The handles that need no directive. -/
def standardHandles : List (List Char × List Char) :=
  [(['!'], ['!']), (['!', '!'], "tag:yaml.org,2002:".toList)]

/-- Takes the directives of a document: at most one version, which is 1.1 or 1.2, and different tag
handles. -/
def directives : Bool → List (List Char × List Char) → List Token →
    Option (List (List Char × List Char) × List Token)
  | seen, handles, .versionDirective major minor :: rest =>
    if seen || major != 1 || (minor != 1 && minor != 2) then none
    else directives true handles rest
  | seen, handles, .tagDirective handle target :: rest =>
    if handles.any (·.1 = handle) then none
    else directives seen (handles ++ [(handle, target)]) rest
  | _, handles, tokens => some (handles, tokens)

/-- Whether nothing but document ends stands before the end of the stream. -/
def endsWell (tokens : List Token) : Bool :=
  tokens.dropWhile (· = .documentEnd) = [.streamEnd]

/-- Whether a token ends an empty document. -/
def endsDocument : Token → Bool
  | .versionDirective _ _ => true
  | .tagDirective _ _ => true
  | .documentStart => true
  | .documentEnd => true
  | .streamEnd => true
  | _ => false

/-- The stream with a document that begins with given tokens. -/
def withRoot (handles : List (List Char × List Char)) (tokens : List Token) : Stream :=
  let maker : Maker := { tokens, handles := handles ++ standardHandles }
  let (root, m) := Maker.node (6 * tokens.length + 6) true false maker
  ⟨some root, endsWell m.tokens⟩

/-- The stream of a text. -/
def ofText (text : List Char) : Stream :=
  match Token.ofText text with
  | [] => ⟨some .cut, false⟩
  | [.streamEnd] => ⟨none, true⟩
  | tokens =>
    let explicit := match tokens with
      | .versionDirective _ _ :: _ => true
      | .tagDirective _ _ :: _ => true
      | .documentStart :: _ => true
      | _ => false
    if explicit then match directives false [] tokens with
      | some (handles, .documentStart :: rest) => match rest with
        | [] => ⟨some .cut, false⟩
        | token :: _ =>
          if endsDocument token then ⟨some .empty, endsWell rest⟩ else withRoot handles rest
      | _ => ⟨some .cut, false⟩
    else withRoot [] tokens

/-- The anchored nodes by number. -/
def anchors (s : Stream) : List (Nat × Node) :=
  match s.root with
  | some root => root.anchored.reverse
  | none => []

end Stream

end NodeScrape.Yaml
