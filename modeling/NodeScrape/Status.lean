import NodeScrape.Failure.Basic

/-!
# Status of the scraper

What the last cycles left behind. A cycle that could not list its nodes leaves the batch before it
in place, and only a cycle with a batch makes the scraper ready.
-/

namespace NodeScrape

/-- What the scraper last did. -/
structure Status where
  /-- When the last cycle was due. -/
  lastTick : Option Instant := none
  /-- The batch of the last cycle that had one. -/
  latest : Option Batch := none
  /-- What the last cycle had to complain about. -/
  lastError : Option String := none
  deriving DecidableEq

namespace Status

/-- Notes that a cycle was due. -/
def recordTick (s : Status) (time : Instant) : Status := { s with lastTick := some time }

/-- Stores what a cycle came to. -/
def store (s : Status) (batch : Batch) (failure : Option Failure) : Status :=
  let s := { s with lastError := failure.map Failure.message }
  if failure.any Failure.isListing then s else { s with latest := some batch }

/-- How long a cycle may have been due: one and a half resolutions. -/
def longestWait (resolution : Duration) : Duration := resolution + resolution / 2

/-- Whether a cycle was due recently. -/
def isTimely (s : Status) (now : Instant) (resolution : Duration) : Bool :=
  match s.lastTick with
  | some tick => now - tick ≤ longestWait resolution
  | none => false

/-- Whether there is a batch. -/
def isReady (s : Status) : Bool := s.latest.isSome

end Status

end NodeScrape
