import NodeScrape.Files.Path
import NodeScrape.Net.SocketAddress
import NodeScrape.Node.Basic
import NodeScrape.Time.Duration

/-!
# Configuration

What the program is told: how often and how long to scrape, where to listen, how to reach kubelets,
and the nodes. Everything has a default.
-/

namespace NodeScrape

/-- How kubelets are reached. -/
structure KubeletConfig where
  /-- The port of nodes that have none of their own. -/
  port : UInt16 := 10250
  /-- The scheme of the summary's address. -/
  scheme : String := "https"
  /-- Whether certificates go unchecked. -/
  insecureTls : Bool := false
  /-- The kinds of addresses in order of preference. -/
  preferredKinds : List AddressKind := AddressKind.defaultPreference
  /-- The file with the token that authorizes requests. -/
  bearerTokenFile : Option Path := none
  deriving DecidableEq

/-- A configuration as it is written. -/
structure Config where
  /-- The time between the starts of two cycles, in milliseconds. -/
  metricResolutionMs : UInt64 := 60000
  /-- The longest time of one cycle, in milliseconds; the next tick may end it earlier. -/
  scrapeTimeoutMs : UInt64 := 10000
  /-- Where the probes and instruments are served. -/
  listen : Net.SocketAddress := .v4 ⟨0, 0, 0, 0⟩ 4443
  kubelet : KubeletConfig := {}
  nodes : List Node := []
  /-- The directory that relative paths start from. -/
  fileDir : Path := ⟨""⟩
  deriving DecidableEq

namespace Config

/-- The time between the starts of two cycles. -/
def metricResolution (c : Config) : Duration := Duration.ofMillis c.metricResolutionMs.toNat

/-- The longest time of one cycle. -/
def scrapeTimeout (c : Config) : Duration := Duration.ofMillis c.scrapeTimeoutMs.toNat

/-- The listing of the nodes, which are fixed and so can always be listed. -/
def listing (c : Config) : Except (List String) (List Node) := .ok c.nodes

/-- Where the bearer token is, seen from the working directory. -/
def bearerTokenPath (c : Config) : Option Path := c.kubelet.bearerTokenFile.map c.fileDir.join

end Config

end NodeScrape
