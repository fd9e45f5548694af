import NodeScrape.Config.Basic
import NodeScrape.Node.Draft
import NodeScrape.Yaml.Read

/-!
# Configuration in YAML

Readers of the configuration. Keys that it does not have are skipped.
-/

namespace NodeScrape

open Yaml

/-- Reads a socket address. -/
def readSocketAddress : Reader Net.SocketAddress := fun place node => do
  let text ← readText "socket address" place node
  match Net.SocketAddress.parse? text with
  | some address => return address
  | none => throw (.problem (some place) .socketAddress)

/-- Reads a path. -/
def readPath : Reader Path := fun place node => return ⟨← readText "path string" place node⟩

/-- How an address of a node is read. -/
def nodeAddressRecord : RecordType NodeAddressDraft NodeAddress where
  name := "NodeAddress"
  fields := [
    ⟨"type", (·.kind.isSome), fun p v d => do
      return { d with kind := some (← readVariant AddressKind.byName p v) }⟩,
    ⟨"address", (·.address.isSome), fun p v d => do
      return { d with address := some (← readText "a string" p v) }⟩]
  empty := {}
  finish := NodeAddressDraft.finish

/-- How a node is read. -/
def nodeRecord : RecordType NodeDraft NodeScrape.Node where
  name := "Node"
  fields := [
    ⟨"name", (·.name.isSome), fun p v d => do
      return { d with name := some (← readText "a string" p v) }⟩,
    ⟨"addresses", (·.addresses.isSome), fun p v d => do
      return { d with addresses := some (← readList nodeAddressRecord.read p v) }⟩,
    ⟨"ready", (·.ready.isSome), fun p v d => do
      return { d with ready := some (← readBool p v) }⟩,
    ⟨"kubelet_port", (·.kubeletPort.isSome), fun p v d => do
      return { d with kubeletPort := some (← readOption readUInt16 p v) }⟩]
  empty := {}
  finish := NodeDraft.finish

/-- The kubelet's part of which only some members have been read. -/
structure KubeletConfigDraft where
  port : Option UInt16 := none
  scheme : Option String := none
  insecureTls : Option Bool := none
  preferredKinds : Option (List AddressKind) := none
  bearerTokenFile : Option (Option Path) := none

/-- How the kubelet's part is read. -/
def kubeletRecord : RecordType KubeletConfigDraft KubeletConfig where
  name := "KubeletConfig"
  fields := [
    ⟨"port", (·.port.isSome), fun p v d => do
      return { d with port := some (← readUInt16 p v) }⟩,
    ⟨"scheme", (·.scheme.isSome), fun p v d => do
      return { d with scheme := some (← readText "a string" p v) }⟩,
    ⟨"insecure_tls", (·.insecureTls.isSome), fun p v d => do
      return { d with insecureTls := some (← readBool p v) }⟩,
    ⟨"preferred_address_types", (·.preferredKinds.isSome), fun p v d => do
      return { d with preferredKinds := some (← readList (readVariant AddressKind.byName) p v) }⟩,
    ⟨"bearer_token_file", (·.bearerTokenFile.isSome), fun p v d => do
      return { d with bearerTokenFile := some (← readOption readPath p v) }⟩]
  empty := {}
  finish d :=
    let default : KubeletConfig := {}
    .ok {
      port := d.port.getD default.port
      scheme := d.scheme.getD default.scheme
      insecureTls := d.insecureTls.getD default.insecureTls
      preferredKinds := d.preferredKinds.getD default.preferredKinds
      bearerTokenFile := d.bearerTokenFile.getD default.bearerTokenFile }

/-- A configuration of which only some members have been read. -/
structure ConfigDraft where
  metricResolutionMs : Option UInt64 := none
  scrapeTimeoutMs : Option UInt64 := none
  listen : Option Net.SocketAddress := none
  kubelet : Option KubeletConfig := none
  nodes : Option (List NodeScrape.Node) := none

/-- How a configuration is read. -/
def configRecord : RecordType ConfigDraft Config where
  name := "ScraperConfig"
  fields := [
    ⟨"metric_resolution_ms", (·.metricResolutionMs.isSome), fun p v d => do
      return { d with metricResolutionMs := some (← readUInt64 p v) }⟩,
    ⟨"scrape_timeout_ms", (·.scrapeTimeoutMs.isSome), fun p v d => do
      return { d with scrapeTimeoutMs := some (← readUInt64 p v) }⟩,
    ⟨"listen", (·.listen.isSome), fun p v d => do
      return { d with listen := some (← readSocketAddress p v) }⟩,
    ⟨"kubelet", (·.kubelet.isSome), fun p v d => do
      return { d with kubelet := some (← kubeletRecord.read p v) }⟩,
    ⟨"nodes", (·.nodes.isSome), fun p v d => do
      return { d with nodes := some (← readList nodeRecord.read p v) }⟩]
  empty := {}
  finish d :=
    let default : Config := {}
    .ok {
      metricResolutionMs := d.metricResolutionMs.getD default.metricResolutionMs
      scrapeTimeoutMs := d.scrapeTimeoutMs.getD default.scrapeTimeoutMs
      listen := d.listen.getD default.listen
      kubelet := d.kubelet.getD default.kubelet
      nodes := d.nodes.getD default.nodes }

/-- Decodes a configuration; the directory of its file is not part of it. -/
def Config.decode (text : String) : Except Yaml.Error Config := Yaml.decode configRecord.read text

end NodeScrape
