import NodeScrape.Yaml.Node
import NodeScrape.Yaml.Plain

/-!
# Typed readers of YAML

A reader goes through a node from top to bottom, and the first problem that it meets is its error,
with the place of the innermost value that was being read. What is malformed has no place.
-/

namespace NodeScrape.Yaml

/-- A step from a value to one of its parts. -/
inductive Step where
  /-- To the value of a key. -/
  | key (name : String)
  /-- To the value of a key that is no scalar. -/
  | unnamed
  /-- To an item of a sequence. -/
  | item (index : Nat)
  deriving DecidableEq, Repr

/-- The place of a value: the steps to it from the root, the last one first. -/
abbrev Place := List Step

/-- The text of a place. -/
def placeText : Place → String
  | [] => ""
  | .key name :: parent => (if parent.isEmpty then "" else placeText parent ++ ".") ++ name
  | .unnamed :: parent => (if parent.isEmpty then "" else placeText parent ++ ".") ++ "?"
  | .item index :: parent => placeText parent ++ "[" ++ Nat.repr index ++ "]"

/-- What is wrong with a value. -/
inductive Problem where
  /-- It does not fit. -/
  | mismatch (mismatch : Mismatch)
  /-- It is no socket address. -/
  | socketAddress
  deriving DecidableEq

/-- Why a text does not decode. -/
inductive Error where
  /-- The text is malformed, or is more or less than one document. -/
  | malformed
  /-- A value is wrong, at a place once that is known. -/
  | problem (place : Option Place) (problem : Problem)
  deriving DecidableEq

/-- The words of YAML: numbers are never written with an exponent. -/
def wording : Wording where
  nothing := "unit value"
  layout := ⟨none, none, false, 1⟩

/-- The sentence for a problem. -/
def Problem.message : Problem → String
  | .mismatch m => wording.message m
  | .socketAddress => "invalid socket address syntax"

/-- The sentence for an error. -/
def Error.message : Error → String
  | .malformed => "<yaml>"
  | .problem (some place@(_ :: _)) p => placeText place ++ ": " ++ p.message
  | .problem _ p => p.message

/-- What a reader can look up, and how often it may follow an alias. -/
structure Source where
  /-- The anchored nodes. -/
  anchors : List (Nat × Node)
  /-- The number of aliases that may be followed. -/
  limit : Nat

/-- A reading in progress; it counts the aliases that it has followed. -/
abbrev Reading (α : Type) := ReaderT Source (StateT Nat (Except Error)) α

/-- A typed reader of the node at a place. -/
abbrev Reader (α : Type) := Place → Node → Reading α

/-- Fails with a problem whose place is not yet known. -/
def refuse {α : Type} (m : Mismatch) : Reading α := throw (.problem none (.mismatch m))

/-- Gives a problem its place unless it has one. -/
def locate {α : Type} (place : Place) (reading : Reading α) : Reading α :=
  tryCatch reading fun e => match e with
    | .problem none p => throw (.problem (some place) p)
    | e => throw e

/-- Goes from an alias to its node. -/
def resolve (node : Node) : Reading Node :=
  match node with
  | .alias id => do
    let source ← read
    let count ← get
    set (count + 1)
    if source.limit < count + 1 then throw .malformed
    return (source.anchors.lookup id).getD .cut
  | node => pure node

/-- The tag of a kind of value in the standard. -/
def standardTag (kind : String) : List Char := ("tag:yaml.org,2002:" ++ kind).toList

/-- Whether a tag is one of the document's own. -/
def isLocalTag (tag : List Char) : Bool := tag.head? = some '!'

/-- What a scalar stands for. A standard tag insists on its kind; without one only a plain scalar is
more than its text. -/
def scalarMeaning (tag : Option (List Char)) (text : List Char) (style : Style) :
    Except Mismatch Found :=
  let whole := Found.text (String.ofList text)
  let insist (found : Option Found) (kind : String) : Except Mismatch Found :=
    match found with
    | some found => .ok found
    | none => .error (.invalidValue whole kind)
  match tag with
  | none => .ok (if style = .plain then meaning text else whole)
  | some tag =>
    if tag = standardTag "bool" then insist ((boolean? text).map .boolean) "a boolean"
    else if tag = standardTag "int" then insist (integer? text) "an integer"
    else if tag = standardTag "float" then insist ((float? text).map .float) "a float"
    else if tag = standardTag "null" then
      insist (if isNothing text then some .nothing else none) "null"
    else .ok (if isLocalTag tag && style = .plain then meaning text else whole)

/-- Refuses a node of the wrong kind. -/
def mismatch {α : Type} (node : Node) (expected : String) : Reading α :=
  match node with
  | .scalar props text style => match scalarMeaning props.tag text style with
    | .ok found => refuse (.invalidType found expected)
    | .error m => refuse m
  | .sequence _ _ _ => refuse (.invalidType .sequence expected)
  | .mapping _ _ _ => refuse (.invalidType .map expected)
  | .alias _ => throw .malformed
  | .cut => throw .malformed

/-- Whether a scalar may stand for a value of a kind by its text. -/
def isBare (kind : String) (tag : Option (List Char)) (style : Style) : Bool :=
  style = .plain || (style = .literal && tag = some (standardTag kind))

/-- Reads a scalar by its text. -/
def readScalar {α : Type} (kind expected : String) (parse : List Char → Option α) : Reader α :=
  fun place node => do
    let node ← resolve node
    locate place (match node with
      | .scalar props text style =>
        match if isBare kind props.tag style then parse text else none with
        | some a => pure a
        | none => mismatch node expected
      | node => mismatch node expected)

/-- Reads a truth value. -/
def readBool : Reader Bool := readScalar "bool" "a boolean" boolean?

/-- Reads a word of 64 bits. -/
def readUInt64 : Reader UInt64 :=
  readScalar "int" "u64" fun text => (unsigned? UInt64.size text).map UInt64.ofNat

/-- Reads a word of 16 bits. -/
def readUInt16 : Reader UInt16 := fun place node => do
  let n ← readScalar "int" "u16" (unsigned? UInt64.size) place node
  if n < UInt16.size then return UInt16.ofNat n
  else locate place (refuse (.invalidValue (.integer n) "u16"))

/-- Reads the text of any scalar. -/
def readText (expected : String) : Reader String := fun place node => do
  let node ← resolve node
  locate place (match node with
    | .scalar _ text _ => pure (String.ofList text)
    | node => mismatch node expected)

/-- Whether a scalar stands for an absent value. -/
def isAbsent (tag : Option (List Char)) (text : List Char) (style : Style) : Reading Bool :=
  if style != .plain then pure false
  else match tag with
    | none => pure (text.isEmpty || isNothing text)
    | some tag =>
      if tag != standardTag "null" then pure false
      else if isNothing text then pure true
      else refuse (.invalidValue (.text (String.ofList text)) "null")

/-- Reads a value that may be absent. -/
def readOption {α : Type} (read : Reader α) : Reader (Option α) := fun place node => do
  let node ← resolve node
  match node with
  | .scalar props text style =>
    if ← isAbsent props.tag text style then return none else some <$> read place node
  | .cut => throw .malformed
  | node => some <$> read place node

/-- Whether a scalar is an empty collection. -/
def isEmptyCollection : Node → Bool
  | .scalar _ text style => text.isEmpty && style = .plain
  | _ => false

/-- Reads items in order. -/
def readItems {α : Type} (read : Reader α) (place : Place) : Nat → List Node → Reading (List α)
  | _, [] => pure []
  | index, item :: rest => do
    let a ← read (.item index :: place) item
    let more ← readItems read place (index + 1) rest
    return a :: more

/-- Reads a list. -/
def readList {α : Type} (read : Reader α) : Reader (List α) := fun place node => do
  let node ← resolve node
  locate place (match node with
    | .sequence _ items closed => do
      let values ← readItems read place 0 items
      if closed then pure values else throw .malformed
    | node => if isEmptyCollection node then pure [] else mismatch node "a sequence")

mutual

/-- Whether a node is cut anywhere. -/
def Node.isCut : Node → Bool
  | .scalar _ _ _ => false
  | .sequence _ items closed => isCutItems items || !closed
  | .mapping _ pairs closed => isCutPairs pairs || !closed
  | .alias _ => false
  | .cut => true

/-- Whether one of the nodes is cut. -/
def isCutItems : List Node → Bool
  | [] => false
  | item :: rest => item.isCut || isCutItems rest

/-- Whether one of the keys and values is cut. -/
def isCutPairs : List (Node × Node) → Bool
  | [] => false
  | (key, value) :: rest => key.isCut || value.isCut || isCutPairs rest

end

/-- Skips a node. -/
def skip (node : Node) : Reading Unit := if node.isCut then throw .malformed else pure ()

/-- Reads what stands behind a tag that names an alternative: nothing. -/
def readUnit : Reader Unit := fun place node => do
  let node ← resolve node
  locate place (match node with
    | .scalar _ text style =>
      if style = .plain && (text.isEmpty || isNothing text) then pure ()
      else refuse (.invalidValue (.text (String.ofList text)) "null")
    | node => mismatch node "unit")

/-- Reads one of several alternatives, named by a scalar's text or by a tag of the document's own. -/
def readVariant {α : Type} (alternatives : List (String × α)) : Reader α := fun place node => do
  let choose (name : String) : Reading α :=
    match alternatives.lookup name with
    | some a => pure a
    | none => refuse (.unknownVariant name (alternatives.map (·.1)))
  let tagged (tag : List Char) (node : Node) : Reading α := do
    let a ← choose (String.ofList (tag.drop 1))
    readUnit place node
    return a
  let untagged (found : Found) : Reading α :=
    locate place (refuse (.invalidType found "a YAML tag starting with '!'"))
  let node ← resolve node
  let localTag (props : Properties) : Option (List Char) := props.tag.filter isLocalTag
  match node with
  | .scalar props text _ => match localTag props with
    | some tag => tagged tag node
    | none => locate place (choose (String.ofList text))
  | .mapping props _ _ => match localTag props with
    | some tag => tagged tag node
    | none => untagged .map
  | .sequence props _ _ => match localTag props with
    | some tag => tagged tag node
    | none => untagged .sequence
  | _ => throw .malformed

/-- One member of a record with the draft `σ`: how its value is added to the draft. -/
structure Field (σ : Type) where
  /-- The member's name. -/
  name : String
  /-- Whether the draft has it already. -/
  isSet : σ → Bool
  /-- Reads its value into the draft. -/
  read : Place → Node → σ → Reading σ

/-- Reads keys with their values into a draft. The value of an unknown key is skipped. -/
def readPairs {σ : Type} (fields : List (Field σ)) (place : Place) :
    List (Node × Node) → σ → Reading σ
  | [], draft => pure draft
  | (key, value) :: rest, draft => do
    let name ← readText "field identifier" place key
    let step : Step := match key with
      | .scalar _ _ _ => .key name
      | _ => .unnamed
    let draft ← match fields.find? (·.name = name) with
      | some field =>
        if field.isSet draft then refuse (.duplicateField name)
        else field.read (step :: place) value draft
      | none => do
        skip value
        pure draft
    readPairs fields place rest draft

/-- A kind of record: its name, its fields, an empty draft, and the record of a full one. -/
structure RecordType (σ α : Type) where
  name : String
  fields : List (Field σ)
  empty : σ
  /-- The record of a draft; a missing member is named. -/
  finish : σ → Except String α

/-- Reads a record. -/
def RecordType.read {σ α : Type} (r : RecordType σ α) : Reader α := fun place node => do
  let finish (draft : σ) : Reading α := match r.finish draft with
    | .ok a => pure a
    | .error name => refuse (.missingField name)
  let node ← resolve node
  locate place (match node with
    | .mapping _ pairs closed => do
      let draft ← readPairs r.fields place pairs r.empty
      if closed then finish draft else throw .malformed
    | node => if isEmptyCollection node then finish r.empty else mismatch node ("struct " ++ r.name))

/-- Decodes a text that holds one document. An empty stream holds an empty value. -/
def decode {α : Type} (reader : Reader α) (text : String) : Except Error α := do
  let stream := Stream.ofText text.toList
  let root := stream.root.getD .empty
  let source : Source := ⟨stream.anchors, 100 * root.size⟩
  let (a, _) ← (reader [] root source).run 0
  if stream.clean then return a else throw .malformed

end NodeScrape.Yaml
