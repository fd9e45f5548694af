import NodeScrape.Cycle.Scraper
import NodeScrape.Status

/-!
# The scrape loop

The loop starts a cycle at every tick of a fixed grid until it is shut down, and stores what each
cycle came to. It never starts a cycle while another one runs; ticks that it missed meanwhile are
skipped.
-/

namespace NodeScrape

/-- What decides how the loop goes. -/
structure LoopPlan where
  /-- The time between two ticks of the grid. -/
  resolution : Nat
  /-- The scraper as it is for a cycle that begins at some time. -/
  scraper : Nat → Scraper
  /-- When the loop is shut down, if ever. -/
  shutdown : Option Nat := none

/-- What the loop is doing. -/
inductive LoopStage where
  /-- It waits for the next tick of the grid. -/
  | waiting
  /-- A cycle runs that will come to something. -/
  | scraping (report : CycleReport)
  /-- It is over. -/
  | ended
  deriving DecidableEq

/-- The loop at work. -/
structure ScrapeLoop where
  now : Nat := 0
  /-- The next tick of the grid. -/
  due : Nat := 0
  stage : LoopStage := .waiting
  status : Status := {}
  instruments : Instruments := {}
  /-- When its cycles began, the last one first. -/
  begun : List Nat := []
  /-- How many nodes were attempted. -/
  calls : Nat := 0
  deriving DecidableEq

namespace ScrapeLoop

/-- How late a tick may be taken without counting as missed. -/
def tolerance : Nat := 5

/-- The tick after one that was taken at some time: the next on the grid that is still to come if
ticks were missed. -/
def nextDue (resolution due now : Nat) : Nat :=
  if due + tolerance < now then now + resolution - (now - due) % resolution else due + resolution

/-- What can happen. -/
inductive Step where
  /-- Time passes until something can be done. -/
  | wait
  /-- The loop takes a tick and begins a cycle. -/
  | begin
  /-- The loop finds that it is shut down. -/
  | stop
  /-- The running cycle returns and is stored. -/
  | store
  deriving DecidableEq, Repr

/-- The scope of the cycle of a tick ends with the loop, or when the next tick is due. -/
def scope (p : LoopPlan) (due : Nat) : Ending := ⟨p.shutdown, some (due + p.resolution)⟩

/-- Takes the tick that is due. -/
def takeTick (p : LoopPlan) (l : ScrapeLoop) : ScrapeLoop :=
  { l with
    due := nextDue p.resolution l.due l.now
    status := l.status.recordTick (Duration.ofMillis l.due)
    begun := l.now :: l.begun }

/-- Runs a cycle that will come to something. -/
def runCycle (l : ScrapeLoop) (report : CycleReport) : ScrapeLoop :=
  { l with stage := .scraping report, calls := l.calls + report.calls }

/-- Takes the tick that is due and begins its cycle. -/
def beginCycle (p : LoopPlan) (l : ScrapeLoop) : ScrapeLoop :=
  (takeTick p l).runCycle ((p.scraper l.now).scrape (scope p l.due) l.now l.instruments)

/-- The loop after a step, if the step can be taken. A tick that is due and a shutdown that has come
may be found in either order. -/
def step? (p : LoopPlan) (l : ScrapeLoop) : Step → Option ScrapeLoop
  | .wait =>
    if l.stage = .waiting && l.now < l.due && !Ending.reached p.shutdown l.now then
      some { l with now := p.shutdown.elim l.due (min · l.due) }
    else none
  | .begin => if l.stage = .waiting && l.due ≤ l.now then some (beginCycle p l) else none
  | .stop =>
    if l.stage = .waiting && Ending.reached p.shutdown l.now then some { l with stage := .ended }
    else none
  | .store => match l.stage with
    | .scraping report => some { l with
        now := report.finished
        stage := .waiting
        status := l.status.store report.batch report.failure
        instruments := report.instruments }
    | _ => none

/-- The time at which the loop goes on, and the step that it takes then; none once it is over. -/
def next? (p : LoopPlan) (l : ScrapeLoop) : Option (Nat × Step) :=
  match l.stage with
  | .ended => none
  | .scraping report => some (report.finished, .store)
  | .waiting =>
    if Ending.reached p.shutdown l.now then some (l.now, .stop)
    else if l.due ≤ l.now then some (l.now, .begin)
    else some (p.shutdown.elim l.due (min · l.due), .wait)

/-- Takes at most `fuel` steps, none of them after a time. -/
def runUntil (p : LoopPlan) (t : Nat) : Nat → ScrapeLoop → ScrapeLoop
  | 0, l => l
  | fuel + 1, l => match next? p l with
    | none => l
    | some (u, s) => if u ≤ t then runUntil p t fuel ((step? p l s).getD l) else l

/-- The loop at a time. Every tick of the grid takes three steps, and no two ticks fall together. -/
def atTime (p : LoopPlan) (t : Nat) : ScrapeLoop := runUntil p t (3 * (t + 2)) {}

end ScrapeLoop

end NodeScrape
