import NodeScrape.Node.Basic

/-!
# Nodes in the making

A document gives the members of a node in any order. A draft holds those that have been read; a node
has a name, an address has a kind and a host, and everything else may be left out.
-/

namespace NodeScrape

/-- An address of which only some members have been read. -/
structure NodeAddressDraft where
  kind : Option AddressKind := none
  address : Option String := none

/-- The address of a draft, or the member that it lacks. -/
def NodeAddressDraft.finish (d : NodeAddressDraft) : Except String NodeAddress := do
  let some kind := d.kind | throw "type"
  let some address := d.address | throw "address"
  return ⟨kind, address⟩

/-- A node of which only some members have been read. -/
structure NodeDraft where
  name : Option String := none
  addresses : Option (List NodeAddress) := none
  ready : Option Bool := none
  kubeletPort : Option (Option UInt16) := none

/-- The node of a draft, or the member that it lacks. -/
def NodeDraft.finish (d : NodeDraft) : Except String Node := do
  let some name := d.name | throw "name"
  return { name, addresses := d.addresses.getD [], ready := d.ready.getD true,
           kubeletPort := d.kubeletPort.getD none }

end NodeScrape
