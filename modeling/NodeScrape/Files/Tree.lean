import NodeScrape.Files.IoError
import NodeScrape.Files.Path

/-!
# File trees

The files below the working directory. A path is walked component by component, and the first one
that cannot be followed decides the failure. Nothing but directories is known to lie outside.
-/

namespace NodeScrape

/-- A file or directory. -/
inductive FileEntry where
  /-- A directory. -/
  | directory
  /-- A file with its bytes. -/
  | file (bytes : List UInt8)
  deriving DecidableEq, Repr

/-- The files below the working directory, each by the components of its path. -/
structure FileTree where
  entries : List (List String × FileEntry)
  deriving DecidableEq, Repr

namespace FileTree

/-- The tree of files given by their paths. -/
def ofList (entries : List (String × FileEntry)) : FileTree :=
  ⟨entries.map fun (path, entry) =>
    ((Path.components ⟨path⟩).filter fun name => !name.isEmpty && name != ".", entry)⟩

/-- What stands at a place; a place above an entry is a directory. -/
def entryAt (tree : FileTree) (place : List String) : Option FileEntry :=
  if place.isEmpty then some .directory
  else match tree.entries.lookup place with
    | some entry => some entry
    | none =>
      if tree.entries.any fun (p, _) => place.isPrefixOf p then some .directory else none

/-- Where a walk stands. -/
inductive Place where
  /-- Below the working directory. -/
  | inside (components : List String)
  /-- In a directory that is not below it. -/
  | outside
  deriving DecidableEq, Repr

/-- The greatest length of a component in bytes. -/
def maxComponent : Nat := 255

/-- The length in bytes that no path reaches. -/
def maxPath : Nat := 4096

/-- Follows components from a place. -/
def walk (tree : FileTree) : Place → List String → Except IoError Place
  | place, [] => .ok place
  | place, name :: rest => do
    if let .inside components := place then
      if let some (.file _) := tree.entryAt components then throw .notDirectory
    if name.isEmpty || name = "." then tree.walk place rest
    else if name = ".." then
      match place with
      | .inside [] => tree.walk .outside rest
      | .inside components => tree.walk (.inside components.dropLast) rest
      | .outside => tree.walk .outside rest
    else if maxComponent < name.utf8ByteSize then throw .nameTooLong
    else match place with
      | .outside => throw .notFound
      | .inside components =>
        let components := components ++ [name]
        match tree.entryAt components with
        | none => throw .notFound
        | some _ => tree.walk (.inside components) rest

/-- The bytes of the file at a path. -/
def read (tree : FileTree) (path : Path) : Except IoError (List UInt8) := do
  if path.text.toList.contains '\x00' then throw .nulInPath
  if path.text.isEmpty then throw .notFound
  if maxPath ≤ path.text.utf8ByteSize then throw .nameTooLong
  let start := if path.isAbsolute then Place.outside else Place.inside []
  match ← tree.walk start path.components with
  | .outside => throw .isDirectory
  | .inside components => match tree.entryAt components with
    | some (.file bytes) => return bytes
    | _ => throw .isDirectory

/-- The text of the file at a path. -/
def readText (tree : FileTree) (path : Path) : Except IoError String := do
  let bytes ← tree.read path
  match String.fromUTF8? ⟨bytes.toArray⟩ with
  | some text => return text
  | none => throw .notUtf8

end FileTree

end NodeScrape
