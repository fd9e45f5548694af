import NodeScrape.Proofs.Cycle.Step

/-!
# What a cycle writes to the instruments

A cycle only ever writes to the instruments. So a step goes the same way whatever they hold, and
afterwards they hold what they held before and, on top of it, what the step writes.
-/

namespace NodeScrape

/-- What is written about a node that is settled. -/
def Pending.settling (p : Pending) (outcome : NodeOutcome) (clock : WallClock) :
    List Instruments.Update :=
  .observe p.node (WallTime.since clock.later p.start) :: match outcome with
    | .ok _ => [.mark p.node clock.now]
    | .error _ => []

namespace Cycle

/-- The same cycle with other instruments. -/
def withInstruments (c : Cycle) (i : Instruments) : Cycle :=
  { c with ledger := { c.ledger with instruments := i } }

/-- What a task writes that tries to settle a slot. -/
def settleWrites (c : Cycle) (slot : Nat) (outcome : String → NodeOutcome) (clock : WallClock) :
    List Instruments.Update :=
  match c.ledger.board.pending? slot with
  | none => []
  | some p => p.settling (outcome p.node) clock

/-- What a step writes. -/
def writesAt (c : Cycle) : Step → List Instruments.Update
  | .settle slot attempt took clock =>
    c.settleWrites slot (fun node => attempt.outcome node took) clock
  | .giveUp slot reason clock => c.settleWrites slot (fun _ => .error (.ofReason reason)) clock
  | .leaveOut later => match c.stage with
    | .closed _ (p :: _) => [.observe p.node (WallTime.since later p.start)]
    | _ => []
  | .count => match c.stage with
    | .closed _ [] => [.scrape c.ledger.failures.isEmpty]
    | _ => []
  | _ => []

variable {c c' : Cycle} {s : Step} {slot : Nat}

theorem settleWrites_of_pending_none (hp : c.ledger.board.pending? slot = none)
    (f : String → NodeOutcome) (clock : WallClock) : c.settleWrites slot f clock = [] := by
  unfold settleWrites
  rw [hp]

theorem settleWrites_of_pending {p : Pending} (hp : c.ledger.board.pending? slot = some p)
    (f : String → NodeOutcome) (clock : WallClock) :
    c.settleWrites slot f clock = p.settling (f p.node) clock := by
  unfold settleWrites
  rw [hp]

/-- Settling a slot writes the same whatever the instruments hold. -/
theorem settleSlot_withInstruments (c : Cycle) (i : Instruments) (slot : Nat)
    (f : String → NodeOutcome) (clock : WallClock) :
    (c.withInstruments i).settleSlot slot f clock = (c.settleSlot slot f clock).withInstruments
      ((c.settleWrites slot f clock).foldl Instruments.apply i) := by
  have hboard : (c.withInstruments i).ledger.board = c.ledger.board := rfl
  unfold settleSlot settleWrites Ledger.settle
  rw [hboard]
  cases c.ledger.board.pending? slot with
  | none => rfl
  | some p =>
    cases ho : f p.node with
    | ok points => simp only [ho]; rfl
    | error cause => simp only [ho]; rfl

/-- A step goes the same way whatever the instruments hold, and writes the same. -/
theorem step?_withInstruments (c : Cycle) (i : Instruments) (s : Step) :
    (c.withInstruments i).step? s =
      (c.step? s).map (·.withInstruments ((c.writesAt s).foldl Instruments.apply i)) := by
  have hstage : (c.withInstruments i).stage = c.stage := rfl
  have hreasons : (c.withInstruments i).reasons = c.reasons := rfl
  have hboard : (c.withInstruments i).ledger.board = c.ledger.board := rfl
  cases s with
  | settle slot attempt took clock => exact congrArg some (settleSlot_withInstruments ..)
  | giveUp slot reason clock =>
    rw [step?, step?, hreasons, settleSlot_withInstruments]
    by_cases hr : reason ∈ c.reasons
    · rw [if_pos hr, if_pos hr]; rfl
    · rw [if_neg hr, if_neg hr]; rfl
  | start now =>
    rw [step?, step?, hstage]
    cases hc : c.stage with
    | starting index rest =>
      cases rest with
      | nil => rfl
      | cons n rest => cases hn : n.name.isEmpty <;> simp only [hn] <;> rfl
    | _ => rfl
  | started =>
    rw [step?, step?, hstage]
    cases hc : c.stage with
    | starting index rest => cases rest <;> rfl
    | _ => rfl
  | drained =>
    rw [step?, step?, hstage, hboard]
    split <;> rfl
  | cutOff =>
    rw [step?, step?, hstage, hreasons]
    split <;> rfl
  | cancelSelf =>
    rw [step?, step?, hstage]
    cases hc : c.stage <;> rfl
  | abort =>
    rw [step?, step?, hstage]
    split <;> rfl
  | close =>
    rw [step?, step?, hstage]
    split <;> rfl
  | leaveOut later =>
    rw [step?, step?, hstage, writesAt]
    cases hc : c.stage with
    | closed batch left => cases left <;> rfl
    | _ => rfl
  | count =>
    rw [step?, step?, hstage, writesAt]
    cases hc : c.stage with
    | closed batch left => cases left <;> rfl
    | _ => rfl
  | collect =>
    rw [step?, step?, hstage]
    cases hc : c.stage <;> rfl
  | _ => rfl

/-- A cycle never empties the instruments. -/
theorem reset_not_mem_writesAt (c : Cycle) (s : Step) : .reset ∉ c.writesAt s := by
  have htask (slot : Nat) (f : String → NodeOutcome) (clock : WallClock) :
      .reset ∉ c.settleWrites slot f clock := by
    cases hp : c.ledger.board.pending? slot with
    | none =>
      rw [settleWrites_of_pending_none hp]
      exact List.not_mem_nil
    | some p =>
      rw [settleWrites_of_pending hp]
      cases f p.node <;> simp [Pending.settling]
  cases s with
  | settle slot attempt took clock => exact htask slot (fun node => attempt.outcome node took) clock
  | giveUp slot reason clock => exact htask slot (fun _ => .error (.ofReason reason)) clock
  | leaveOut later =>
    rw [writesAt]
    split <;> simp
  | count =>
    rw [writesAt]
    split <;> simp
  | _ => exact List.not_mem_nil

end Cycle

end NodeScrape
