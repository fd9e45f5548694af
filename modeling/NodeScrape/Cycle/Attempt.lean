import NodeScrape.Failure.Fetch
import NodeScrape.Scope.Race

/-!
# Attempts at a node

What a client does for one node, and what that comes to. A client is asked before its scope, so a
result that is there when the scope ends still counts.
-/

namespace NodeScrape

/-- What a client has for a node. -/
inductive Attempt where
  | answered (summary : Summary)
  | failed (failure : FetchFailure)
  /-- The client broke off. -/
  | panicked (payload : PanicPayload)
  deriving DecidableEq

/-- What a node comes to: its points or a failure. -/
abbrev NodeOutcome := Except FetchFailure NodePoints

/-- What a client's result for a listed node comes to, where `took` is the time until then. -/
def Attempt.outcome (node : String) (took : Duration) : Attempt → NodeOutcome
  | answered summary => (summary.points node).mapError .ofDefect
  | failed failure => .error failure
  | panicked payload => .error (.panicked (payload.describe took))

/-- How a client behaves for a node. -/
structure Behavior where
  /-- The ticks until it has its result, if it ever has one. -/
  delay : Option Nat := some 0
  /-- Whether it goes on after its scope is done. -/
  ignoresScope : Bool := false
  /-- Whether it holds its thread, so that nothing else of its task runs before its result is
  there. -/
  holdsThread : Bool := false
  result : Attempt
  deriving DecidableEq

namespace Behavior

/-- The tick at which a client that was asked at `start` has its own result. -/
def moment (b : Behavior) (start : Nat) : Option Nat := b.delay.map (start + ·)

/-- What a client that was asked at `start` has at a tick: its own result, or the reason of its
scope, for which it would rather fail than wait on. -/
def ready (b : Behavior) (start t : Nat) (reasons : List DoneReason) : Option Attempt :=
  if Ending.reached (b.moment start) t then some b.result
  else if b.ignoresScope || b.holdsThread then none
  else reasons.head?.map fun r => .failed (.ofReason r)

/-- What the task of a node may come to at a tick. -/
def poll (b : Behavior) (start t : Nat) (reasons : List DoneReason) :
    List (Except DoneReason Attempt) :=
  Race.poll (b.ready start t reasons) (if b.holdsThread then [] else reasons)

end Behavior

end NodeScrape
