import NodeScrape.Failure.Fetch

/-!
# Failures of a cycle

Failures of nodes are collected while a cycle runs and taken out together. The collector counts what
it holds apart from the list, so that it can be asked without being locked.
-/

namespace NodeScrape

/-- The failures of the nodes of one cycle; there is at least one. -/
structure AggregateFailure where
  causes : List NodeFailure
  nonempty : causes ≠ []
  deriving DecidableEq

namespace AggregateFailure

/-- The names of the nodes that ran out of time, in order. -/
def timedOut (a : AggregateFailure) : List String :=
  (a.causes.filter (·.cause.isTimeout)).map (·.node)

/-- One failure speaks for itself, several stand between brackets. -/
def message (a : AggregateFailure) : String :=
  match a.causes with
  | [f] => f.message
  | causes => "[" ++ String.intercalate ", " (causes.map NodeFailure.message) ++ "]"

end AggregateFailure

/-- A collector of failures. -/
structure FailureCollector where
  /-- The failures held, in the order in which they came. -/
  causes : List NodeFailure := []
  /-- Their number as it is told without a lock. -/
  count : Nat := 0
  deriving DecidableEq

namespace FailureCollector

/-- Adds a failure. -/
def push (c : FailureCollector) (f : NodeFailure) : FailureCollector :=
  ⟨c.causes ++ [f], c.count + 1⟩

/-- Whether nothing is held, by the count. -/
def isEmpty (c : FailureCollector) : Bool := c.count = 0

/-- Takes out all that is held. -/
def take (c : FailureCollector) : Option AggregateFailure × FailureCollector :=
  (if h : c.causes = [] then none else some ⟨c.causes, h⟩, {})

end FailureCollector

end NodeScrape
