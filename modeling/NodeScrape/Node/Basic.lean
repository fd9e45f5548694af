/-!
# Nodes

A node of the cluster as the listing names it: its addresses, each of a kind, and the port of its
kubelet where it differs from the configured one.
-/

namespace NodeScrape

/-- The kinds of addresses. -/
inductive AddressKind where
  | hostname
  | internalIP
  | externalIP
  | internalDNS
  | externalDNS
  deriving DecidableEq, Repr

namespace AddressKind

/-- The kinds in the order of their declaration. -/
def all : List AddressKind := [hostname, internalIP, externalIP, internalDNS, externalDNS]

/-- The written name of a kind. -/
def name : AddressKind → String
  | hostname => "Hostname"
  | internalIP => "InternalIP"
  | externalIP => "ExternalIP"
  | internalDNS => "InternalDNS"
  | externalDNS => "ExternalDNS"

/-- The kinds by name. -/
def byName : List (String × AddressKind) := all.map fun k => (k.name, k)

/-- The order in which kinds are preferred unless configured otherwise: names before numbers, and
inside before outside. -/
def defaultPreference : List AddressKind :=
  [hostname, internalDNS, internalIP, externalDNS, externalIP]

end AddressKind

/-- An address of a node. -/
structure NodeAddress where
  /-- Its kind. -/
  kind : AddressKind
  /-- The host, which may be empty. -/
  address : String
  deriving DecidableEq, Repr

/-- A node of the cluster. -/
structure Node where
  /-- Its name; a node without one cannot be attributed. -/
  name : String
  /-- Its addresses in the order of the listing. -/
  addresses : List NodeAddress := []
  /-- Whether the cluster calls it ready; the scrape does not ask. -/
  ready : Bool := true
  /-- The port of its kubelet, where it is not the configured one. -/
  kubeletPort : Option UInt16 := none
  deriving DecidableEq, Repr

end NodeScrape
