import NodeScrape.Scope.Forest

/-!
# Scopes on a clock that jumps

While everything waits, the clock jumps to the next timer. Cancellations may be set to come later.
-/

namespace NodeScrape

/-- A forest of scopes and the cancellations to come. -/
structure Timeline where
  forest : Forest := {}
  /-- The tick of each cancellation to come and the scope that it cancels. -/
  agenda : List (Nat × Scope) := []
  deriving DecidableEq, Repr

namespace Timeline

/-- The last tick that has passed. -/
def tick (l : Timeline) : Nat := Timer.passed l.forest.now

/-- Does what is due. -/
def settle (l : Timeline) : Timeline :=
  let (due, later) := l.agenda.partition fun (t, _) => t ≤ l.tick
  ⟨due.foldl (fun f (_, s) => f.cancel s) l.forest, later⟩

/-- Lets a length of time pass. -/
def pass (l : Timeline) (length : Duration) : Timeline :=
  { l with forest := l.forest.apply (.pass length) }.settle

/-- Jumps to a tick. -/
def jump (l : Timeline) (t : Nat) : Timeline := l.pass (Duration.ofMillis (t - l.tick))

/-- The tick of a timer that is set now. -/
def timer (l : Timeline) (length : Duration) : Nat := Timer.tick (l.forest.now + length)

/-- Sleeps for a length of time. -/
def sleep (l : Timeline) (length : Duration) : Timeline := l.jump (l.timer length)

/-- Sets a cancellation of a scope. -/
def cancelAfter (l : Timeline) (s : Scope) (length : Duration) : Timeline :=
  { l with agenda := l.agenda ++ [(l.timer length, s)] }.settle

/-- When a scope ends. -/
def ending (l : Timeline) (s : Scope) : Ending :=
  let now := l.forest.ending s
  let coming := l.agenda.filterMap fun (t, canceled) =>
    if canceled.lineage.take 1 |>.any (· ∈ s.lineage) then some t else none
  { now with canceled := now.canceled <|> coming.min? }

/-- Waits for a scope to be done, at most for some time: the reason, if there was one, the ticks that
passed and the timeline then. -/
def done (l : Timeline) (s : Scope) (longest : Duration) : Option DoneReason × Nat × Timeline :=
  let limit := l.timer longest
  match Race.done l.tick (l.ending s) with
  | some (t, reasons) =>
    if t ≤ limit then (reasons.head?, t - l.tick, l.jump t) else (none, limit - l.tick, l.jump limit)
  | none => (none, limit - l.tick, l.jump limit)

/-- Runs work that takes some time within a scope: what it comes to, the ticks that passed and the
timeline then. -/
def run {α : Type} (l : Timeline) (s : Scope) (length : Duration) (value : α) :
    Option (Except DoneReason α) × Nat × Timeline :=
  match Race.ofMoment l.tick (some (l.timer length)) value (l.ending s) with
  | some (t, outcomes) => (outcomes.head?, t - l.tick, l.jump t)
  | none => (none, 0, l)

end Timeline

end NodeScrape
