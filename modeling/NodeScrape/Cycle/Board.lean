import NodeScrape.Batch.Basic
import NodeScrape.Time.WallClock

/-!
# The board of a cycle

The batch under construction and the nodes that have not come to an end. A node is taken off the
board at most once, and none once the board is closed.
-/

namespace NodeScrape

/-- A node that has not come to an end. -/
structure Pending where
  node : String
  /-- The wall-clock time when it was put on the board. -/
  start : WallTime
  deriving DecidableEq, Repr

/-- A batch under construction and the nodes still awaited, each in a slot of its own. -/
structure Board where
  batch : Batch := {}
  /-- The slots in the order in which they were given; one whose node was taken is empty. -/
  slots : List (Option Pending) := []
  closed : Bool := false
  deriving DecidableEq

namespace Board

/-- Puts a node on the board, in the slot after all others. -/
def track (b : Board) (node : String) (start : WallTime) : Board :=
  { b with slots := b.slots ++ [some ⟨node, start⟩] }

/-- How many nodes were ever put on the board. The slots that were given stay, whatever becomes of
their nodes. -/
def tracked (b : Board) : Nat := b.slots.length

/-- The node that can be taken out of a slot. -/
def pending? (b : Board) (slot : Nat) : Option Pending :=
  if b.closed then none else b.slots[slot]?.join

/-- Empties a slot. -/
def clear (b : Board) (slot : Nat) : Board := { b with slots := b.slots.set slot none }

/-- Adds points to the batch. -/
def add (b : Board) (points : NodePoints) : Board := { b with batch := b.batch.add points }

/-- Whether no node is awaited. -/
def isDrained (b : Board) : Bool := b.slots.all Option.isNone

/-- The nodes still awaited. -/
def unsettled (b : Board) : List Pending := b.slots.filterMap id

/-- The board after its batch and its nodes were handed out for good. -/
def close (b : Board) : Board := ⟨{}, b.slots.map fun _ => none, true⟩

end Board

end NodeScrape
