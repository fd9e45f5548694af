import NodeScrape.Cycle.Basic

/-!
# Cycles on the virtual clock

The virtual clock jumps from one tick at which something happens to the next. At each of them the
scope is looked at first, then every task is asked in the order of the nodes, and then the cycle
itself goes on. Every move is a step of the cycle.
-/

namespace NodeScrape

/-- All that decides how a cycle over listed nodes goes. -/
structure CyclePlan where
  nodes : List Node
  client : Node → Behavior
  /-- The tick at which it begins. -/
  begins : Nat
  /-- When its scope ends. -/
  ending : Ending
  clock : WallClock

namespace CyclePlan

/-- The ticks for which a cycle still waits after its scope is done. -/
def grace : Nat := 20

/-- The nodes that have a name; each has the slot of its place in this list. -/
def named (p : CyclePlan) : List Node := p.nodes.filter fun n => !n.name.isEmpty

/-- The wall-clock time that a client that breaks off has taken. -/
def took (p : CyclePlan) : Duration := WallTime.since p.clock.later p.clock.now

/-- The tick at which the cycle stops waiting. -/
def cutOff? (p : CyclePlan) : Option Nat := p.ending.first?.map fun t => max p.begins t + grace

/-- The ticks at which something happens. -/
def moments (p : CyclePlan) : List Nat :=
  p.named.filterMap (fun n => (p.client n).moment p.begins) ++ p.ending.moments ++
    p.cutOff?.toList

/-- The cycle with all its tasks started. -/
def launch (p : CyclePlan) (instruments : Instruments) : Cycle :=
  (p.nodes.foldl (fun c _ => c.step (.start p.clock.now)) (Cycle.begin p.nodes instruments)).step
    .started

/-- What the scope of a cycle has come to at a tick. -/
def lookAtScope (p : CyclePlan) (t : Nat) (c : Cycle) : Cycle :=
  let c := if Ending.reached p.ending.canceled t then c.step .cancelParent else c
  if Ending.reached p.ending.deadline t then c.step .expire else c

/-- Asks the task of a node at a tick. -/
def askTask (p : CyclePlan) (t : Nat) (c : Cycle) (node : Node) (slot : Nat) : Cycle :=
  match (p.client node).poll p.begins t c.reasons with
  | [] => c
  | .ok attempt :: _ => c.step (.settle slot attempt p.took p.clock)
  | .error reason :: _ => c.step (.giveUp slot reason p.clock)

/-- Asks the tasks of nodes, the first of which has the slot `slot`. -/
def askTasks (p : CyclePlan) (t : Nat) (c : Cycle) (slot : Nat) : List Node → Cycle
  | [] => c
  | node :: rest => p.askTasks t (p.askTask t c node slot) (slot + 1) rest

/-- Lets the cycle go on at a tick. -/
def goOn (p : CyclePlan) (t : Nat) (c : Cycle) : Cycle :=
  if c.ledger.board.isDrained then c.step .drained
  else if Ending.reached p.cutOff? t then c.step .cutOff
  else c

/-- All that happens at a tick. -/
def wake (p : CyclePlan) (t : Nat) (c : Cycle) : Cycle :=
  p.goOn t (p.askTasks t (p.lookAtScope t c) 0 p.named)

/-- Whether a cycle has stopped waiting. -/
def hasStopped (c : Cycle) : Bool :=
  match c.stage with
  | .stopped _ => true
  | _ => false

/-- The first of the given ticks at which a cycle stops waiting, and the cycle then. -/
def gather (p : CyclePlan) (c : Cycle) : List Nat → Option (Nat × Cycle)
  | [] => none
  | t :: rest =>
    let c := p.wake t c
    if hasStopped c then some (t, c) else p.gather c rest

/-- Accounts for the nodes that are left. -/
def leaveOut (p : CyclePlan) (c : Cycle) : Cycle :=
  match c.stage with
  | .closed _ left => left.foldl (fun c _ => c.step (.leaveOut p.clock.later)) c
  | _ => c

/-- Brings a cycle that has stopped waiting to its end. -/
def finish (p : CyclePlan) (c : Cycle) : Cycle :=
  ((p.leaveOut (((c.step .cancelSelf).step .abort).step .close)).step .count).step .collect

/-- The tick at which a cycle returns, and the cycle then; none if it never does. -/
def run (p : CyclePlan) (instruments : Instruments) : Option (Nat × Cycle) :=
  (p.gather (p.launch instruments) (Race.wakeups p.begins p.moments)).map fun (t, c) =>
    (t, p.finish c)

end CyclePlan

end NodeScrape
