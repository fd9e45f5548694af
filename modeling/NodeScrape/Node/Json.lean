import NodeScrape.Json.Read
import NodeScrape.Node.Draft

/-!
# Nodes in JSON

Readers of nodes and their addresses.
-/

namespace NodeScrape

open Json

/-- Reads a kind of address by its name. -/
def AddressKind.read : Reader AddressKind := readVariant AddressKind.byName

/-- How an address is read. -/
def NodeAddress.record : RecordType NodeAddressDraft NodeAddress where
  name := "NodeAddress"
  fields := [
    ⟨"type", (·.kind.isSome), false, fun v d => do
      return { d with kind := some (← AddressKind.read v) }⟩,
    ⟨"address", (·.address.isSome), false, fun v d => do
      return { d with address := some (← readText "a string" v) }⟩]
  empty := {}
  finish := NodeAddressDraft.finish

/-- How a node is read. -/
def Node.record : RecordType NodeDraft Node where
  name := "Node"
  fields := [
    ⟨"name", (·.name.isSome), false, fun v d => do
      return { d with name := some (← readText "a string" v) }⟩,
    ⟨"addresses", (·.addresses.isSome), true, fun v d => do
      return { d with addresses := some (← readList NodeAddress.record.read v) }⟩,
    ⟨"ready", (·.ready.isSome), true, fun v d => do
      return { d with ready := some (← readBool v) }⟩,
    ⟨"kubelet_port", (·.kubeletPort.isSome), true, fun v d => do
      return { d with kubeletPort := some (← readOption readUInt16 v) }⟩]
  empty := {}
  finish := NodeDraft.finish

/-- Decodes a node from JSON. -/
def Node.decode (bytes : List UInt8) : Except Json.Error Node := Json.decode Node.record.read bytes

end NodeScrape
