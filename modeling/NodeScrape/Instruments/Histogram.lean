import NodeScrape.Binary64.Basic

/-!
# Latency histograms

A histogram counts observations by the first of its bounds that they do not exceed. The last bound
is infinite, so every observation has a bucket.
-/

namespace NodeScrape

/-- One bucket: the observations up to its bound that fit no earlier one. -/
structure Bucket where
  bound : Binary64
  count : Nat := 0
  deriving DecidableEq

/-- Observations of a latency in seconds. -/
structure LatencyHistogram where
  /-- How many there are. -/
  count : Nat
  /-- Their sum, in the order in which they came. -/
  sum : Binary64
  /-- The buckets, by rising bounds. -/
  buckets : List Bucket
  deriving DecidableEq

namespace LatencyHistogram

/-- The bounds in thousandths of a second. -/
def boundMillis : List Nat := [5, 10, 25, 50, 100, 250, 500, 1000, 2500, 5000, 10000]

/-- The bounds of the buckets. -/
def bounds : List Binary64 :=
  boundMillis.map (fun n => Binary64.ofDecimal false n (-3)) ++ [.infinity false]

/-- A histogram without observations. -/
def empty : LatencyHistogram := ⟨0, Binary64.zero, bounds.map fun b => { bound := b }⟩

/-- Counts a value in the first bucket whose bound it does not exceed. -/
def place (value : Binary64) : List Bucket → List Bucket
  | [] => []
  | b :: rest =>
    if value.le b.bound then { b with count := b.count + 1 } :: rest else b :: place value rest

/-- Adds an observation. -/
def observe (h : LatencyHistogram) (value : Binary64) : LatencyHistogram :=
  ⟨h.count + 1, h.sum.add value, place value h.buckets⟩

/-- Every bound with the number of observations in its bucket and all before it. -/
def cumulate (before : Nat) : List Bucket → List (Binary64 × Nat)
  | [] => []
  | b :: rest => (b.bound, before + b.count) :: cumulate (before + b.count) rest

/-- The cumulative buckets. -/
def cumulative (h : LatencyHistogram) : List (Binary64 × Nat) := cumulate 0 h.buckets

end LatencyHistogram

end NodeScrape
