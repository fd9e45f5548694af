import NodeScrape.Time.Duration

/-!
# Wall-clock time

A moment of the wall clock is a whole number of nanoseconds from the unix epoch, negative before
it. The wall clock only serves telemetry and may be set back, so an elapsed time is never negative.
-/

namespace NodeScrape

/-- Nanoseconds since the unix epoch. -/
abbrev WallTime := Int

namespace WallTime

/-- A moment given by whole seconds and further nanoseconds. -/
def ofParts (seconds : Int) (nanos : Nat) : WallTime := seconds * Duration.perSecond + nanos

/-- The time from `start` to `now`, zero if the clock was set back between them. -/
def since (now start : WallTime) : Duration := (now - start).toNat

/-- Whole seconds since the epoch as a binary64 number. Before the epoch the distance is rounded to
a number of seconds before its ceiling is taken. -/
def unixSeconds (t : WallTime) : Binary64 :=
  if 0 ≤ t then Binary64.ofNat (Duration.seconds t.toNat)
  else (Duration.toSeconds t.natAbs).ceil.neg

end WallTime

/-- What a cycle reads off the wall clock: the time when its nodes start, and the time when they
are settled. -/
structure WallClock where
  /-- The reading at the start of a node. -/
  now : WallTime
  /-- The reading from which elapsed times are measured. -/
  later : WallTime
  deriving DecidableEq, Repr

end NodeScrape
