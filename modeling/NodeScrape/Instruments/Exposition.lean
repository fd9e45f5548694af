import NodeScrape.Binary64.Boundary
import NodeScrape.Instruments.Basic

/-!
# Exposition of the instruments

The text format of the instruments: for each family a description, its kind and its samples, and a
mark at the end. The value of a label stands between quotes as it is.
-/

namespace NodeScrape

namespace Exposition

/-- The value of a sample. -/
inductive Quantity where
  /-- A count, written as a whole number. -/
  | count (n : Nat)
  /-- A measured value, always written with a fraction or an exponent. -/
  | value (x : Binary64)
  deriving DecidableEq

/-- One line of the exposition. -/
structure Sample where
  /-- The name of the series' family and role. -/
  name : String
  /-- Names and values of its labels. -/
  labels : List (String × String)
  quantity : Quantity
  deriving DecidableEq

/-- The kinds of families. -/
inductive Kind where
  | counter
  | gauge
  | histogram
  deriving DecidableEq, Repr

/-- The name of a kind. -/
def Kind.name : Kind → String
  | counter => "counter"
  | gauge => "gauge"
  | histogram => "histogram"

/-- The samples of one instrument. -/
structure Family where
  name : String
  /-- What the family tells, without its last period. -/
  description : String
  kind : Kind
  samples : List Sample
  deriving DecidableEq

/-- Measured values are positional from `10 ^ -5` up to 21 places. -/
def valueLayout : NumberLayout := ⟨some (-5), some 21, false, 1⟩

/-- The text of a measured value. -/
def valueText (x : Binary64) : String := valueLayout.text Finite64.boundaryDigits x

/-- The text of the bound of a bucket. -/
def boundText : Binary64 → String
  | .infinity false => "+Inf"
  | x => valueText x

/-- The text of a sample's value. -/
def Quantity.text : Quantity → String
  | count n => Nat.repr n
  | value x => valueText x

/-- A label and its value. -/
def labelText (label : String × String) : String := label.1 ++ "=\"" ++ label.2 ++ "\""

/-- The line of a sample. -/
def Sample.line (s : Sample) : String :=
  s.name ++ "\x7b" ++ String.intercalate "," (s.labels.map labelText) ++ "\x7d " ++
    s.quantity.text

/-- The lines of a family. -/
def Family.lines (f : Family) : List String :=
  ["# HELP " ++ f.name ++ " " ++ f.description ++ ".", "# TYPE " ++ f.name ++ " " ++ f.kind.name] ++
    f.samples.map Sample.line

/-- The text of families. -/
def text (families : List Family) : String :=
  String.join ((families.flatMap Family.lines ++ ["# EOF"]).map (· ++ "\n"))

end Exposition

namespace Instruments

open Exposition

/-- The name of the family of latencies. -/
def latencyName : String := "metrics_server_kubelet_summary_request_duration_seconds"

/-- The name of the family of cycle counts. -/
def scrapesName : String := "metrics_server_kubelet_summary_scrapes"

/-- The name of the family of last scrapes. -/
def lastScrapeName : String := "metrics_server_scraper_last_time_seconds"

/-- The samples of a node's latencies. -/
def latencySamples (node : String) (h : LatencyHistogram) : List Sample :=
  [⟨latencyName ++ "_sum", [("node", node)], .value h.sum⟩,
    ⟨latencyName ++ "_count", [("node", node)], .count h.count⟩] ++
  h.cumulative.map fun (bound, n) =>
    ⟨latencyName ++ "_bucket", [("le", boundText bound), ("node", node)], .count n⟩

/-- The sample of a cycle count. -/
def scrapeSample (success : Bool) (n : Nat) : Sample :=
  ⟨scrapesName ++ "_total", [("success", if success then "true" else "false")], .count n⟩

/-- The sample of a last scrape. -/
def lastScrapeSample (node : String) (time : Binary64) : Sample :=
  ⟨lastScrapeName, [("source", node)], .value time⟩

/-- The instruments as families. -/
def families (i : Instruments) : List Family := [
  ⟨latencyName, "The Kubelet summary request latencies in seconds.", .histogram,
    i.latencies.entries.flatMap fun (node, h) => latencySamples node h⟩,
  ⟨scrapesName, "Total number of attempted Summary API scrapes done by Metrics Server", .counter,
    i.scrapes.entries.map fun (success, n) => scrapeSample success n⟩,
  ⟨lastScrapeName, "Last time metrics-server performed a scrape since unix epoch in seconds.",
    .gauge, i.lastScrape.entries.map fun (node, time) => lastScrapeSample node time⟩]

/-- The exposition of the instruments. -/
def exposition (i : Instruments) : String := Exposition.text i.families

end Instruments

end NodeScrape
