import NodeScrape.Cycle.Plan

/-!
# The scraper

A scraper runs one cycle after another. If the nodes cannot be listed no node is attempted at all;
else the cycle's own timeout can only tighten the deadline of the scope around it.
-/

namespace NodeScrape

/-- What a scraper works with. -/
structure Scraper where
  /-- The listed nodes, or the contexts of the reason why there are none. -/
  listing : Except (List String) (List Node)
  client : Node → Behavior
  /-- The longest time of a cycle in ticks. -/
  timeout : Nat
  clock : WallClock

/-- What a cycle came to. -/
structure CycleReport where
  batch : Batch
  failure : Option Failure
  /-- The tick at which it returned. -/
  finished : Nat
  /-- How many nodes were attempted: for how many of them a task was started. -/
  calls : Nat
  /-- What its tasks still share. -/
  ledger : Ledger
  deriving DecidableEq

namespace CycleReport

/-- The line that is told about a cycle; none where no node was attempted. -/
def line (r : CycleReport) : Option String :=
  let counts := "scraped " ++ Nat.repr r.batch.nodes.length ++ " nodes and " ++
    Nat.repr r.batch.pods.length ++ " pods"
  match r.failure with
  | none => some counts
  | some (.nodes aggregate) => some (counts ++ ", " ++ Nat.repr aggregate.causes.length ++
      " nodes failed (" ++ Nat.repr aggregate.timedOut.length ++ " timed out)")
  | some _ => none

/-- The instruments after a cycle. -/
def instruments (r : CycleReport) : Instruments := r.ledger.instruments

end CycleReport

namespace Scraper

/-- When the scope of a cycle ends that begins at a tick within a scope. -/
def ending (s : Scraper) (parent : Ending) (begins : Nat) : Ending where
  canceled := parent.canceled
  deadline := some (parent.deadline.elim (begins + s.timeout) (min · (begins + s.timeout)))

/-- The plan of a cycle over listed nodes. -/
def plan (s : Scraper) (nodes : List Node) (parent : Ending) (begins : Nat) : CyclePlan :=
  ⟨nodes, s.client, begins, s.ending parent begins, s.clock⟩

/-- The report of a cycle that has returned. Its tasks are those of the nodes that were put on the
board. -/
def report (finished : Nat) (c : Cycle) : CycleReport :=
  let (batch, failure) := c.result?.getD ({}, none)
  ⟨batch, failure.map .nodes, finished, c.ledger.board.tracked, c.ledger⟩

/-- Runs a cycle that begins at a tick. The deadline of its scope sees to it that it returns. -/
def scrape (s : Scraper) (parent : Ending) (begins : Nat) (instruments : Instruments) :
    CycleReport :=
  match s.listing with
  | .error chain =>
    ⟨{}, some (.listNodes chain), begins, 0, { instruments := instruments.recordScrape false }⟩
  | .ok nodes =>
    let p := s.plan nodes parent begins
    let (finished, c) := (p.run instruments).getD (begins, p.launch instruments)
    report finished c

end Scraper

end NodeScrape
