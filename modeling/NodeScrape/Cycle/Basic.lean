import NodeScrape.Cycle.Ledger
import NodeScrape.Failure.Basic

/-!
# Scrape cycles

A cycle starts a task for every named node and gathers what settles before its scope is done. The
tasks run beside the cycle, so a task may take a step between any two steps of the cycle, also after
its last one.
-/

namespace NodeScrape

/-- How far a cycle is. -/
inductive Stage where
  /-- Starts tasks for the nodes that are left, the first of which is number `index`. -/
  | starting (index : Nat) (rest : List Node)
  /-- Waits for the tasks, or until its scope is done and the grace period over. -/
  | gathering
  /-- Has stopped waiting. -/
  | stopped (allSettled : Bool)
  /-- Has canceled its scope. -/
  | canceled (allSettled : Bool)
  /-- Has aborted the tasks that are left. -/
  | aborted
  /-- Has closed the board and accounts for the nodes that are left. -/
  | closed (batch : Batch) (left : List Pending)
  /-- Has counted itself. -/
  | counted (batch : Batch)
  /-- Has returned. -/
  | returned (batch : Batch) (failure : Option AggregateFailure)
  deriving DecidableEq

/-- A cycle at work. -/
structure Cycle where
  stage : Stage
  ledger : Ledger := {}
  /-- Whether the scope around the cycle is canceled. -/
  parentCanceled : Bool := false
  /-- Whether the cycle has canceled its own scope. -/
  selfCanceled : Bool := false
  /-- Whether the deadline has passed. -/
  expired : Bool := false
  deriving DecidableEq

namespace Cycle

/-- A cycle over listed nodes that has not begun. -/
def begin (nodes : List Node) (instruments : Instruments) : Cycle :=
  { stage := .starting 0 nodes, ledger := { instruments := instruments } }

/-- The reasons for which the scope of the tasks is done. -/
def reasons (c : Cycle) : List DoneReason :=
  (if c.parentCanceled || c.selfCanceled then [.canceled] else []) ++
    if c.expired then [.deadlineExceeded] else []

/-- What can happen. -/
inductive Step where
  /-- The scope around the cycle is canceled. -/
  | cancelParent
  /-- The deadline passes. -/
  | expire
  /-- A client's result settles its slot. -/
  | settle (slot : Nat) (attempt : Attempt) (took : Duration) (clock : WallClock)
  /-- A task whose client has no result settles its slot because the scope is done. -/
  | giveUp (slot : Nat) (reason : DoneReason) (clock : WallClock)
  /-- The cycle puts the next listed node on the board, or reports that it has no name. -/
  | start (now : WallTime)
  /-- The cycle has started all tasks. -/
  | started
  /-- The cycle finds that all tasks have settled. -/
  | drained
  /-- The cycle stops waiting after the grace period. -/
  | cutOff
  /-- The cycle cancels its scope. -/
  | cancelSelf
  /-- The cycle aborts its tasks. -/
  | abort
  /-- The cycle closes the board. -/
  | close
  /-- The cycle accounts for a node that is left. -/
  | leaveOut (later : WallTime)
  /-- The cycle counts itself. -/
  | count
  /-- The cycle takes out the failures and returns. -/
  | collect
  deriving DecidableEq

/-- What a slot's settling makes of the cycle; a node that has left the board is left alone. -/
def settleSlot (c : Cycle) (slot : Nat) (outcome : String → NodeOutcome) (clock : WallClock) :
    Cycle :=
  match c.ledger.board.pending? slot with
  | none => c
  | some p => { c with ledger := (c.ledger.settle slot (outcome p.node) clock).2 }

/-- The cycle after a step, if the step can be taken. -/
def step? (c : Cycle) : Step → Option Cycle
  | .cancelParent => some { c with parentCanceled := true }
  | .expire => some { c with expired := true }
  | .settle slot attempt took clock =>
    some (c.settleSlot slot (fun node => attempt.outcome node took) clock)
  | .giveUp slot reason clock =>
    if reason ∈ c.reasons then some (c.settleSlot slot (fun _ => .error (.ofReason reason)) clock)
    else none
  | .start now => match c.stage with
    | .starting index (node :: rest) =>
      some { c with
        stage := .starting (index + 1) rest
        ledger :=
          if node.name.isEmpty then c.ledger.fail (Ledger.unnamed index) .missingIdentity
          else c.ledger.track node.name now }
    | _ => none
  | .started => match c.stage with
    | .starting _ [] => some { c with stage := .gathering }
    | _ => none
  | .drained =>
    if c.stage = .gathering && c.ledger.board.isDrained then some { c with stage := .stopped true }
    else none
  | .cutOff =>
    if c.stage = .gathering && !c.reasons.isEmpty then some { c with stage := .stopped false }
    else none
  | .cancelSelf => match c.stage with
    | .stopped allSettled => some { c with stage := .canceled allSettled, selfCanceled := true }
    | _ => none
  | .abort => if c.stage = .canceled false then some { c with stage := .aborted } else none
  | .close =>
    if c.stage = .canceled true || c.stage = .aborted then
      some { c with
        stage := .closed c.ledger.board.batch c.ledger.board.unsettled
        ledger := { c.ledger with board := c.ledger.board.close } }
    else none
  | .leaveOut later => match c.stage with
    | .closed batch (p :: left) =>
      some { c with
        stage := .closed batch left
        ledger := c.ledger.leaveOut p c.parentCanceled later }
    | _ => none
  | .count => match c.stage with
    | .closed batch [] =>
      some { c with
        stage := .counted batch
        ledger := { c.ledger with
          instruments := c.ledger.instruments.recordScrape c.ledger.failures.isEmpty } }
    | _ => none
  | .collect => match c.stage with
    | .counted batch =>
      let (failure, failures) := c.ledger.failures.take
      some { c with stage := .returned batch failure, ledger := { c.ledger with failures := failures } }
    | _ => none

/-- The cycle after steps, if they can be taken one after another. -/
def steps? (c : Cycle) : List Step → Option Cycle
  | [] => some c
  | s :: rest => (c.step? s).bind (steps? · rest)

/-- Takes a step if it can be taken. -/
def step (c : Cycle) (s : Step) : Cycle := (c.step? s).getD c

/-- What a cycle that has returned hands out. -/
def result? (c : Cycle) : Option (Batch × Option AggregateFailure) :=
  match c.stage with
  | .returned batch failure => some (batch, failure)
  | _ => none

end Cycle

end NodeScrape
