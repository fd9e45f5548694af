import NodeScrape.Cycle.Attempt
import NodeScrape.Cycle.Board
import NodeScrape.Failure.Aggregate
import NodeScrape.Instruments.Basic

/-!
# The ledger of a cycle

What the tasks of a cycle share: the board, the failures so far and the instruments. A node is
settled in one indivisible step that touches nothing unless the board still awaits the node.
-/

namespace NodeScrape

/-- What the tasks of a cycle share. -/
structure Ledger where
  board : Board := {}
  failures : FailureCollector := {}
  instruments : Instruments := {}
  deriving DecidableEq

namespace Ledger

/-- Awaits a node. -/
def track (l : Ledger) (node : String) (start : WallTime) : Ledger :=
  { l with board := l.board.track node start }

/-- Notes a failure. -/
def fail (l : Ledger) (node : String) (cause : FetchFailure) : Ledger :=
  { l with failures := l.failures.push ⟨node, cause⟩ }

/-- The name that stands for the listed node number `index` if it has none. -/
def unnamed (index : Nat) : String := "<unnamed #" ++ Nat.repr index ++ ">"

/-- Notes the latency of a node. -/
def observe (l : Ledger) (p : Pending) (later : WallTime) : Ledger :=
  { l with instruments := l.instruments.observe p.node (WallTime.since later p.start) }

/-- Notes what a node came to. -/
def conclude (l : Ledger) (p : Pending) (outcome : NodeOutcome) (now : WallTime) : Ledger :=
  match outcome with
  | .ok points =>
    { l with board := l.board.add points, instruments := l.instruments.mark p.node now }
  | .error cause => l.fail p.node cause

/-- Settles a slot: whether its node was still awaited, and the ledger then. -/
def settle (l : Ledger) (slot : Nat) (outcome : NodeOutcome) (clock : WallClock) : Bool × Ledger :=
  match l.board.pending? slot with
  | none => (false, l)
  | some p =>
    (true, ({ l with board := l.board.clear slot }.observe p clock.later).conclude p outcome clock.now)

/-- The failure of a node that was still awaited when the board was closed. -/
def lateCause (parentCanceled : Bool) : FetchFailure :=
  if parentCanceled then .canceled else .deadlineExceeded

/-- Accounts for a node that was still awaited when the board was closed. -/
def leaveOut (l : Ledger) (p : Pending) (parentCanceled : Bool) (later : WallTime) : Ledger :=
  (l.observe p later).fail p.node (lateCause parentCanceled)

end Ledger

end NodeScrape
