import NodeScrape.Node.Basic

/-!
# The address of a node

Kinds of addresses are tried in an order of preference, and of one kind the first address that is
not empty is taken. A kind counts where it is named first.
-/

namespace NodeScrape

/-- Keeps the first occurrence of every element, given those that came before. -/
def dedupFrom {α : Type} [DecidableEq α] (seen : List α) : List α → List α
  | [] => []
  | a :: rest => if a ∈ seen then dedupFrom seen rest else a :: dedupFrom (a :: seen) rest

/-- An order of preference among kinds of addresses, without repeats. -/
structure AddressPreference where
  /-- The kinds, the preferred first. -/
  kinds : List AddressKind
  deriving DecidableEq, Repr

namespace AddressPreference

/-- The preference of a list, where repeats count for nothing. -/
def ofList (kinds : List AddressKind) : AddressPreference := ⟨dedupFrom [] kinds⟩

/-- The preference that holds unless configured otherwise. -/
def standard : AddressPreference := ofList AddressKind.defaultPreference

/-- The first usable address of one kind. -/
def firstOf (node : Node) (kind : AddressKind) : Option String :=
  (node.addresses.find? fun a => a.kind = kind && !a.address.isEmpty).map (·.address)

/-- The first usable address of the first kind that has one. -/
def choose? (preference : AddressPreference) (node : Node) : Option String :=
  preference.kinds.findSome? (firstOf node)

end AddressPreference

end NodeScrape
