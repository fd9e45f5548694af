/-!
# Background tasks

The modules of the service work in background tasks. When the service winds down every task is
joined: joining waits for its end and warns of one that broke off. Joining a task again does
nothing.
-/

namespace NodeScrape

/-- A task in the background. -/
structure BackgroundTask where
  /-- The tick at which it ends. -/
  ends : Nat
  /-- Whether it breaks off there. -/
  breaks : Bool
  joined : Bool := false
  deriving DecidableEq, Repr

/-- The tasks in the background, in the order in which they were started, and the time. -/
structure Background where
  now : Nat := 0
  tasks : List BackgroundTask := []
  deriving DecidableEq, Repr

/-- What joining a task came to. -/
structure Joining where
  /-- The ticks until the task ended. -/
  waited : Nat := 0
  /-- Whether it broke off. -/
  warned : Bool := false
  deriving DecidableEq, Repr

namespace Background

/-- Starts a task that works for some ticks. -/
def spawn (b : Background) (length : Nat) (breaks : Bool) : Background :=
  { b with tasks := b.tasks ++ [⟨b.now + length, breaks, false⟩] }

/-- Joins a task; one that was joined before, or that there is not, is left alone. -/
def join (b : Background) (index : Nat) : Joining × Background :=
  match b.tasks[index]? with
  | none => ({}, b)
  | some task =>
    if task.joined then ({}, b)
    else (⟨task.ends - b.now, task.breaks⟩,
      ⟨max b.now task.ends, b.tasks.set index { task with joined := true }⟩)

/-- Joining a task again does nothing. -/
theorem join_join (b : Background) (index : Nat) :
    (b.join index).2.join index = ({}, (b.join index).2) := by
  cases h : b.tasks[index]? with
  | none => simp [join, h]
  | some task =>
    by_cases hj : task.joined
    · simp [join, h, hj]
    · have hi : index < b.tasks.length := (List.getElem?_eq_some_iff.1 h).1
      have hb : (b.join index).2.tasks = b.tasks.set index { task with joined := true } := by
        simp [join, h, hj]
      have ht : (b.join index).2.tasks[index]? = some { task with joined := true } := by
        rw [hb, List.getElem?_set_self hi]
      generalize (b.join index).2 = after at ht
      simp [join, ht]

end Background

end NodeScrape
