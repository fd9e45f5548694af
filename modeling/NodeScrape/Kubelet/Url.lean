import NodeScrape.Net.Ip

/-!
# The address of a summary

An address of version 6 stands between brackets, so the last colon of the authority parts host and
port.
-/

namespace NodeScrape.Kubelet

/-- A host as it stands in an address. -/
def hostText (host : String) : String :=
  if (Net.Ipv6.parse? host).isSome then "[" ++ host ++ "]" else host

/-- The part of an address that names host and port. -/
def authority (host : String) (port : UInt16) : String :=
  hostText host ++ ":" ++ Nat.repr port.toNat

/-- What is asked of a kubelet: its summary, limited to what a scrape uses. -/
def summaryTarget : String := "/stats/summary?only_cpu_and_memory=true"

/-- The address of a node's summary. -/
def summaryUrl (scheme host : String) (port : UInt16) : String :=
  scheme ++ "://" ++ authority host port ++ summaryTarget

end NodeScrape.Kubelet
