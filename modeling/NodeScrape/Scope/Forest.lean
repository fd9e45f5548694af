import NodeScrape.Scope.Race
import NodeScrape.Time.Timer

/-!
# Scopes

A scope limits work by a deadline and by cancellation. Scopes are derived from each other: one is
done no later than the scope it was derived from, and canceling it leaves that one alone. Copies of
a scope share its cancellation.
-/

namespace NodeScrape

/-- A scope. -/
structure Scope where
  /-- The token that it shares with its copies, then the tokens of the scopes that it was derived
  from, the nearest first. -/
  lineage : List Nat
  /-- When its time is up. -/
  deadline : Option Instant
  deriving DecidableEq, Repr

/-- All scopes that were handed out, and the time. -/
structure Forest where
  now : Instant := 0
  /-- How many tokens there are. -/
  tokens : Nat := 0
  /-- The tokens that were canceled. -/
  canceled : List Nat := []
  /-- The scopes in the order in which they were handed out. -/
  scopes : List Scope := []
  deriving DecidableEq, Repr

/-- The earlier of a deadline and one that may be missing. -/
def earlier (limit : Option Instant) (deadline : Instant) : Instant :=
  match limit with
  | some l => if l < deadline then l else deadline
  | none => deadline

namespace Forest

/-- Hands out a scope. -/
def add (f : Forest) (s : Scope) : Forest := { f with scopes := f.scopes ++ [s] }

/-- Hands out a scope without deadline that is derived from nothing. -/
def root (f : Forest) : Forest :=
  { f with tokens := f.tokens + 1 }.add ⟨[f.tokens], none⟩

/-- Hands out a scope that is derived from another and ends with it or at a deadline. -/
def derive (f : Forest) (parent : Scope) (deadline : Instant) : Forest :=
  { f with tokens := f.tokens + 1 }.add
    ⟨f.tokens :: parent.lineage, some (earlier parent.deadline deadline)⟩

/-- Cancels a scope and with it its copies and all that was and will be derived from them. -/
def cancel (f : Forest) (s : Scope) : Forest :=
  { f with canceled := s.lineage.take 1 ++ f.canceled }

/-- Whether a scope is canceled. -/
def isCanceled (f : Forest) (s : Scope) : Bool := s.lineage.any fun token => token ∈ f.canceled

/-- Why a scope is done, if it is; a cancellation is told before a deadline. -/
def err (f : Forest) (s : Scope) : Option DoneReason :=
  if f.isCanceled s then some .canceled
  else if s.deadline.any (· ≤ f.now) then some .deadlineExceeded
  else none

/-- When a scope ends, as far as that is known: at once if it is canceled, and when the timer for
its deadline fires. -/
def ending (f : Forest) (s : Scope) : Ending where
  canceled := if f.isCanceled s then some (Timer.passed f.now) else none
  deadline := s.deadline.map Timer.tick

/-- Something that is done with scopes; scopes are named by their number. -/
inductive Action where
  | root
  /-- Derives a scope that ends after some time. -/
  | timeout (of : Nat) (length : Duration)
  /-- Derives a scope that ends at some moment. -/
  | deadline (of : Nat) (time : Instant)
  /-- Copies a scope. -/
  | copy (of : Nat)
  | cancel (of : Nat)
  /-- Lets time pass. -/
  | pass (length : Duration)
  deriving DecidableEq, Repr

/-- The forest after an action; one on a scope that there is not changes nothing. -/
def apply (f : Forest) : Action → Forest
  | .root => f.root
  | .timeout of length => match f.scopes[of]? with
    | some s => f.derive s (f.now + length)
    | none => f
  | .deadline of time => match f.scopes[of]? with
    | some s => f.derive s time
    | none => f
  | .copy of => match f.scopes[of]? with
    | some s => f.add s
    | none => f
  | .cancel of => match f.scopes[of]? with
    | some s => f.cancel s
    | none => f
  | .pass length => { f with now := f.now + length }

end Forest

end NodeScrape
