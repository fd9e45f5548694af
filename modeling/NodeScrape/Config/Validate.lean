import NodeScrape.Config.Error
import NodeScrape.Config.Yaml
import NodeScrape.Files.Tree

/-!
# Checked configurations

A configuration is used only if its lengths of time are positive and its nodes have names of their
own. The first violation is reported: resolution, timeout, then the nodes in their order.
-/

namespace NodeScrape

namespace Config

/-- The first node without a name or with the name of an earlier one, where `seen` are the names
before the node number `index`. -/
def nodeViolation (seen : List String) (index : Nat) : List Node → Option ConfigError
  | [] => none
  | node :: rest =>
    if node.name.isEmpty then some (.emptyNodeName index)
    else if node.name ∈ seen then some (.duplicateNode node.name)
    else nodeViolation (node.name :: seen) (index + 1) rest

/-- The first violation. -/
def violation (c : Config) : Option ConfigError :=
  if c.metricResolutionMs = 0 then some (.zeroDuration "metric_resolution_ms")
  else if c.scrapeTimeoutMs = 0 then some (.zeroDuration "scrape_timeout_ms")
  else nodeViolation [] 0 c.nodes

/-- What is worth a warning without being a violation: a timeout that no cycle can use up. -/
inductive Warning where
  | longTimeout (timeoutMs resolutionMs : UInt64)
  deriving DecidableEq, Repr

/-- The sentence of a warning. -/
def Warning.message : Warning → String
  | longTimeout timeoutMs resolutionMs =>
    "scrape timeout " ++ Nat.repr timeoutMs.toNat ++ "ms exceeds metric resolution " ++
      Nat.repr resolutionMs.toNat ++ "ms, cycles end at the next tick"

/-- The warnings about a configuration, given also where its nodes are at fault. -/
def warnings (c : Config) : List Warning :=
  if c.metricResolutionMs ≠ 0 ∧ c.scrapeTimeoutMs ≠ 0 ∧ c.metricResolutionMs < c.scrapeTimeoutMs
  then [.longTimeout c.scrapeTimeoutMs c.metricResolutionMs]
  else []

/-- A decoded configuration as if read from a path, if it may be used. -/
def checked (c : Config) (path : Path) : Except ConfigError Config :=
  let c := { c with fileDir := path.parent }
  match c.violation with
  | some error => .error error
  | none => .ok c

/-- The configuration of a text, as if read from a path. -/
def parse (text : String) (path : Path) : Except ConfigError Config :=
  match decode text with
  | .ok c => c.checked path
  | .error error => .error (.parse path error)

/-- The warnings that go with `parse`. -/
def parseWarnings (text : String) : List Warning :=
  match decode text with
  | .ok c => c.warnings
  | .error _ => []

/-- The configuration of a file, given what reading it comes to. -/
def ofFile (path : Path) : Except IoError String → Except ConfigError Config
  | .ok text => parse text path
  | .error error => .error (.read path error)

/-- The warnings that go with `ofFile`. -/
def fileWarnings : Except IoError String → List Warning
  | .ok text => parseWarnings text
  | .error _ => []

/-- The configuration in a file. -/
def load (files : FileTree) (path : Path) : Except ConfigError Config :=
  ofFile path (files.readText path)

/-- The warnings that go with `load`. -/
def loadWarnings (files : FileTree) (path : Path) : List Warning :=
  fileWarnings (files.readText path)

end Config

end NodeScrape
