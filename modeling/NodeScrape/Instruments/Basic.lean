import NodeScrape.Instruments.Histogram
import NodeScrape.Instruments.Series
import NodeScrape.Time.WallClock

/-!
# Instruments

What the scraper tells about itself: how long each attempt at a node took, how many cycles ended
with and without success, and when each node was last scraped successfully.
-/

namespace NodeScrape

/-- The instruments of a scraper. -/
structure Instruments where
  /-- The latencies of attempts, by node. -/
  latencies : Series String LatencyHistogram := {}
  /-- The number of cycles, by success. -/
  scrapes : Series Bool Nat := {}
  /-- The time of the last successful scrape in seconds since the epoch, by node. -/
  lastScrape : Series String Binary64 := {}
  deriving DecidableEq

namespace Instruments

/-- Notes how long an attempt took, whatever came of it. -/
def observe (i : Instruments) (node : String) (latency : Duration) : Instruments :=
  { i with latencies :=
      i.latencies.update node LatencyHistogram.empty (·.observe (Duration.toSeconds latency)) }

/-- Counts a cycle. -/
def recordScrape (i : Instruments) (success : Bool) : Instruments :=
  { i with scrapes := i.scrapes.update success 0 (· + 1) }

/-- Notes the time of a successful scrape. -/
def mark (i : Instruments) (node : String) (time : WallTime) : Instruments :=
  { i with lastScrape := i.lastScrape.update node Binary64.zero fun _ => time.unixSeconds }

/-- A use of the instruments. -/
inductive Update where
  | observe (node : String) (latency : Duration)
  | scrape (success : Bool)
  | mark (node : String) (time : WallTime)
  /-- Drops all series. -/
  | reset
  deriving DecidableEq, Repr

/-- The instruments after a use. -/
def apply (i : Instruments) : Update → Instruments
  | .observe node latency => i.observe node latency
  | .scrape success => i.recordScrape success
  | .mark node time => i.mark node time
  | .reset => {}

end Instruments

end NodeScrape
