import NodeScrape.Time.Duration

/-!
# Timers

Timers count whole milliseconds. One that is set for a moment between two of them fires at the
later one, so a timer is never early.
-/

namespace NodeScrape

namespace Timer

/-- The tick at which a timer for a moment fires. -/
def tick (moment : Instant) : Nat := (moment + (Duration.perMilli - 1)) / Duration.perMilli

/-- The last tick that has passed at a moment. -/
def passed (now : Instant) : Nat := now / Duration.perMilli

/-- The moment `ticks` ticks after another. -/
def after (now : Instant) (ticks : Nat) : Instant := now + ticks * Duration.perMilli

/-- A timer fires at a tick exactly if the tick is not before its moment. -/
theorem tick_le_iff (moment t : Nat) :
    tick moment ≤ t ↔ moment ≤ t * Duration.perMilli := by
  unfold tick Duration.perMilli
  omega

/-- Ticks pass one by one. -/
theorem passed_after (now ticks : Nat) : passed (after now ticks) = passed now + ticks := by
  unfold passed after Duration.perMilli
  omega

end Timer

end NodeScrape
