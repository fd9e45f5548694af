import NodeScrape.Scope.Reason

/-!
# Races of work against a scope

Work within a scope is asked at every tick whether it is ready, and only if it is not, whether the
scope is done. So work that is ready at the tick at which the scope ends still counts. Where a scope
is done for two reasons at once, either may be reported.
-/

namespace NodeScrape

/-- The ticks at which a scope is canceled and at which its deadline passes, if they ever come. -/
structure Ending where
  canceled : Option Nat := none
  deadline : Option Nat := none
  deriving DecidableEq, Repr

namespace Ending

/-- Whether a tick that may never come has come. -/
def reached (moment : Option Nat) (t : Nat) : Bool := moment.any (· ≤ t)

/-- The reasons for which a scope is done at a tick. -/
def reasonsAt (e : Ending) (t : Nat) : List DoneReason :=
  (if reached e.canceled t then [.canceled] else []) ++
    if reached e.deadline t then [.deadlineExceeded] else []

/-- The ticks at which something ends. -/
def moments (e : Ending) : List Nat := e.canceled.toList ++ e.deadline.toList

/-- The first tick at which the scope is done. -/
def first? (e : Ending) : Option Nat :=
  match e.canceled, e.deadline with
  | some c, some d => some (min c d)
  | some c, none => some c
  | none, d => d

end Ending

namespace Race

variable {α : Type}

/-- What a race may come to when it is asked: the work if it is ready, else any reason for which the
scope is done, and nothing while neither is there. -/
def poll (ready : Option α) (reasons : List DoneReason) : List (Except DoneReason α) :=
  match ready with
  | some a => [.ok a]
  | none => reasons.map .error

/-- The first of the given ticks at which a race comes to something, and what it may come to. -/
def firstOf (ready : Nat → Option α) (e : Ending) : List Nat →
    Option (Nat × List (Except DoneReason α))
  | [] => none
  | t :: rest => match poll (ready t) (e.reasonsAt t) with
    | [] => firstOf ready e rest
    | outcomes => some (t, outcomes)

/-- The ticks from `start` on at which a race is asked, in order: at once, and whenever something
happens. -/
def wakeups (start : Nat) (moments : List Nat) : List Nat :=
  start :: (moments.filter (start < ·)).mergeSort

/-- A race that begins at a tick, where `moments` are the ticks at which the work may become ready:
when it comes to something, and what it may come to. -/
def run (start : Nat) (moments : List Nat) (ready : Nat → Option α) (e : Ending) :
    Option (Nat × List (Except DoneReason α)) :=
  firstOf ready e (wakeups start (moments ++ e.moments))

/-- Work that is ready with a value from a tick on, if ever. -/
def readyFrom (moment : Option Nat) (value : α) (t : Nat) : Option α :=
  if Ending.reached moment t then some value else none

/-- A race of work that is ready with a value from a tick on. -/
def ofMoment (start : Nat) (moment : Option Nat) (value : α) (e : Ending) :
    Option (Nat × List (Except DoneReason α)) :=
  run start moment.toList (readyFrom moment value) e

/-- Waiting for a scope to be done is a race of work that is never ready. -/
def done (start : Nat) (e : Ending) : Option (Nat × List DoneReason) :=
  (run (α := Empty) start [] (fun _ => none) e).map fun (t, outcomes) =>
    (t, outcomes.filterMap fun
      | .error reason => some reason
      | .ok _ => none)

end Race

end NodeScrape
