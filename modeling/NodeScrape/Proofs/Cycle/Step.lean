import Mathlib.Tactic.Basic
import NodeScrape.Cycle.Basic

/-!
# Steps of a cycle

What each step needs and what it changes. The steps of the tasks can be taken at any stage; those of
the cycle itself lead from one stage to the next.
-/

namespace NodeScrape

/-- Whether a stage carries nothing: no nodes, no batch and no failure. -/
def Stage.isBare : Stage → Bool
  | .starting _ [] | .gathering | .stopped _ | .canceled _ | .aborted => true
  | _ => false

namespace Cycle

variable {c c' : Cycle}

/-- The slot that the task of a node tries to settle by a step; none for the steps of the cycle
itself and of what is around it. -/
def Step.slot? : Step → Option Nat
  | .settle slot _ _ _ => some slot
  | .giveUp slot _ _ => some slot
  | _ => none

/-- The steps that the cycle itself and what is around it take. -/
def ownSteps (steps : List Step) : List Step := steps.filter fun s => s.slot?.isNone

/-- Whether a step only moves the cycle on or notes something about its scope. -/
def Step.keepsLedger : Step → Bool
  | .cancelParent | .expire | .started | .drained | .cutOff | .cancelSelf | .abort => true
  | _ => false

theorem stage_of_result? {batch : Batch} {failure : Option AggregateFailure}
    (hr : c.result? = some (batch, failure)) : c.stage = .returned batch failure := by
  unfold result? at hr
  split at hr
  · cases hr
    assumption
  · cases hr

theorem step?_giveUp {slot : Nat} {reason : DoneReason} {clock : WallClock} :
    c.step? (.giveUp slot reason clock) = some c' ↔
      reason ∈ c.reasons ∧ c' = c.settleSlot slot (fun _ => .error (.ofReason reason)) clock := by
  simp only [step?, Option.ite_none_right_eq_some, Option.some.injEq, eq_comm (a := c')]

theorem step?_start {now : WallTime} :
    c.step? (.start now) = some c' ↔ ∃ index node rest, c.stage = .starting index (node :: rest) ∧
      c' = { c with
        stage := .starting (index + 1) rest
        ledger :=
          if node.name.isEmpty then c.ledger.fail (Ledger.unnamed index) .missingIdentity
          else c.ledger.track node.name now } := by
  cases hstage : c.stage with
  | starting index rest => cases rest <;> simp [step?, hstage, and_assoc, eq_comm (a := c')]
  | _ => simp [step?, hstage]

theorem step?_started :
    c.step? .started = some c' ↔
      ∃ index, c.stage = .starting index [] ∧ c' = { c with stage := .gathering } := by
  cases hstage : c.stage with
  | starting index rest => cases rest <;> simp [step?, hstage, eq_comm (a := c')]
  | _ => simp [step?, hstage]

theorem step?_drained :
    c.step? .drained = some c' ↔ c.stage = .gathering ∧ c.ledger.board.isDrained = true ∧
      c' = { c with stage := .stopped true } := by
  simp only [step?, Option.ite_none_right_eq_some, Option.some.injEq, Bool.and_eq_true,
    decide_eq_true_iff, and_assoc, eq_comm (a := c')]

theorem step?_cutOff :
    c.step? .cutOff = some c' ↔ c.stage = .gathering ∧ c.reasons.isEmpty = false ∧
      c' = { c with stage := .stopped false } := by
  simp only [step?, Option.ite_none_right_eq_some, Option.some.injEq, Bool.and_eq_true,
    decide_eq_true_iff, Bool.not_eq_true', and_assoc, eq_comm (a := c')]

theorem step?_cancelSelf :
    c.step? .cancelSelf = some c' ↔ ∃ allSettled, c.stage = .stopped allSettled ∧
      c' = { c with stage := .canceled allSettled, selfCanceled := true } := by
  cases hstage : c.stage <;> simp [step?, hstage, eq_comm (a := c')]

theorem step?_abort :
    c.step? .abort = some c' ↔ c.stage = .canceled false ∧ c' = { c with stage := .aborted } := by
  simp only [step?, Option.ite_none_right_eq_some, Option.some.injEq, eq_comm (a := c')]

theorem step?_close :
    c.step? .close = some c' ↔ (c.stage = .canceled true ∨ c.stage = .aborted) ∧
      c' = { c with
        stage := .closed c.ledger.board.batch c.ledger.board.unsettled
        ledger := { c.ledger with board := c.ledger.board.close } } := by
  simp only [step?, Option.ite_none_right_eq_some, Option.some.injEq, Bool.or_eq_true,
    decide_eq_true_iff, eq_comm (a := c')]

theorem step?_leaveOut {later : WallTime} :
    c.step? (.leaveOut later) = some c' ↔ ∃ batch p left, c.stage = .closed batch (p :: left) ∧
      c' = { c with
        stage := .closed batch left
        ledger := c.ledger.leaveOut p c.parentCanceled later } := by
  cases hstage : c.stage with
  | closed batch left => cases left <;> simp [step?, hstage, and_assoc, eq_comm (a := c')]
  | _ => simp [step?, hstage]

theorem step?_count :
    c.step? .count = some c' ↔ ∃ batch, c.stage = .closed batch [] ∧
      c' = { c with
        stage := .counted batch
        ledger := { c.ledger with
          instruments := c.ledger.instruments.recordScrape c.ledger.failures.isEmpty } } := by
  cases hstage : c.stage with
  | closed batch left => cases left <;> simp [step?, hstage, eq_comm (a := c')]
  | _ => simp [step?, hstage]

theorem step?_collect :
    c.step? .collect = some c' ↔ ∃ batch, c.stage = .counted batch ∧
      c' = { c with
        stage := .returned batch c.ledger.failures.take.1
        ledger := { c.ledger with failures := c.ledger.failures.take.2 } } := by
  cases hstage : c.stage <;> simp [step?, hstage, eq_comm (a := c')]

/-- A step that keeps the ledger leads from a stage that carries nothing to another, if not to the
same. -/
theorem step?_keepsLedger {s : Step} (hk : s.keepsLedger = true) (h : c.step? s = some c') :
    c'.ledger = c.ledger ∧
      (c'.stage = c.stage ∨ c.stage.isBare = true ∧ c'.stage.isBare = true) := by
  cases s with
  | cancelParent =>
    cases h
    exact ⟨rfl, .inl rfl⟩
  | expire =>
    cases h
    exact ⟨rfl, .inl rfl⟩
  | started =>
    obtain ⟨index, hstage, rfl⟩ := step?_started.mp h
    exact ⟨rfl, .inr ⟨by rw [hstage]; rfl, rfl⟩⟩
  | drained =>
    obtain ⟨hstage, -, rfl⟩ := step?_drained.mp h
    exact ⟨rfl, .inr ⟨by rw [hstage]; rfl, rfl⟩⟩
  | cutOff =>
    obtain ⟨hstage, -, rfl⟩ := step?_cutOff.mp h
    exact ⟨rfl, .inr ⟨by rw [hstage]; rfl, rfl⟩⟩
  | cancelSelf =>
    obtain ⟨allSettled, hstage, rfl⟩ := step?_cancelSelf.mp h
    exact ⟨rfl, .inr ⟨by rw [hstage]; rfl, rfl⟩⟩
  | abort =>
    obtain ⟨hstage, rfl⟩ := step?_abort.mp h
    exact ⟨rfl, .inr ⟨by rw [hstage]; rfl, rfl⟩⟩
  | _ => cases hk

theorem steps?_cons {s : Step} {rest : List Step} :
    c.steps? (s :: rest) = some c' ↔ ∃ next, c.step? s = some next ∧ next.steps? rest = some c' :=
  Option.bind_eq_some_iff

theorem steps?_append {before after : List Step} :
    c.steps? (before ++ after) = some c' ↔
      ∃ mid, c.steps? before = some mid ∧ mid.steps? after = some c' := by
  induction before generalizing c with
  | nil => simp [steps?]
  | cons s rest ih =>
    rw [List.cons_append, steps?_cons]
    constructor
    · rintro ⟨next, hnext, hrest⟩
      obtain ⟨mid, hmid, hafter⟩ := ih.mp hrest
      exact ⟨mid, steps?_cons.mpr ⟨next, hnext, hmid⟩, hafter⟩
    · rintro ⟨mid, hmid, hafter⟩
      obtain ⟨next, hnext, hrest⟩ := steps?_cons.mp hmid
      exact ⟨next, hnext, ih.mpr ⟨mid, hrest, hafter⟩⟩

/-- A step of a run is taken where the steps before it lead. -/
theorem steps?_split {before after : List Step} {s : Step} {mid : Cycle}
    (h : c.steps? (before ++ s :: after) = some c') (hmid : c.steps? before = some mid) :
    ∃ next, mid.step? s = some next ∧ next.steps? after = some c' := by
  obtain ⟨mid', hmid', hafter⟩ := steps?_append.mp h
  obtain rfl : mid = mid' := Option.some.inj (hmid.symm.trans hmid')
  exact steps?_cons.mp hafter

/-- What every step preserves, every run preserves. -/
theorem steps?_preserves {P : Cycle → Prop}
    (hstep : ∀ {c c' : Cycle} {s : Step}, P c → c.step? s = some c' → P c') {steps : List Step}
    (h : P c) (hs : c.steps? steps = some c') : P c' := by
  induction steps generalizing c with
  | nil => exact Option.some.inj hs ▸ h
  | cons s rest ih =>
    obtain ⟨next, hnext, hrest⟩ := steps?_cons.mp hs
    exact ih (hstep h hnext) hrest

end Cycle

namespace Board

theorem pending?_of_closed {b : Board} (h : b.closed = true) (slot : Nat) :
    b.pending? slot = none := by
  simp [pending?, h]

theorem opened_of_pending {b : Board} {slot : Nat} {p : Pending} (hp : b.pending? slot = some p) :
    b.closed = false := by
  cases hc : b.closed with
  | false => rfl
  | true => simp [pending?_of_closed hc] at hp

/-- Nothing can be taken out of a slot that was never given. -/
theorem pending?_of_length_le {b : Board} {slot : Nat} (h : b.slots.length ≤ slot) :
    b.pending? slot = none := by
  simp [pending?, List.getElem?_eq_none h]

/-- A drained board stays drained when a slot is emptied. -/
theorem isDrained_clear {b : Board} (h : b.isDrained = true) (slot : Nat) :
    (b.clear slot).isDrained = true := by
  simp only [isDrained, clear, List.all_eq_true] at h ⊢
  intro o ho
  rcases List.mem_or_eq_of_mem_set ho with ho | rfl
  · exact h o ho
  · rfl

/-- Nothing can be taken out of a drained board. -/
theorem pending?_of_isDrained {b : Board} (h : b.isDrained = true) (slot : Nat) :
    b.pending? slot = none := by
  simp only [isDrained, List.all_eq_true] at h
  unfold pending?
  split
  · rfl
  · cases hslot : b.slots[slot]? with
    | none => rfl
    | some o =>
      have ho := h o (List.mem_of_getElem? hslot)
      rw [Option.isNone_iff_eq_none.mp ho]
      rfl

end Board

namespace Ledger

/-- A slot out of which no node can be taken is left as it is. -/
theorem settle_of_pending_none {l : Ledger} {slot : Nat}
    (hp : l.board.pending? slot = none) (o : NodeOutcome) (clock : WallClock) :
    l.settle slot o clock = (false, l) := by
  unfold settle
  rw [hp]

/-- A settled node leaves its slot, and the ledger has its points or its failure. -/
theorem settle_of_pending {l : Ledger} {slot : Nat} {p : Pending}
    (hp : l.board.pending? slot = some p) (o : NodeOutcome) (clock : WallClock) :
    (l.settle slot o clock).1 = true ∧
      (l.settle slot o clock).2.board.closed = l.board.closed ∧
      (l.settle slot o clock).2.board.slots = l.board.slots.set slot none ∧
      (match o with
        | .ok points => (l.settle slot o clock).2.board.batch = l.board.batch.add points ∧
            (l.settle slot o clock).2.failures = l.failures
        | .error cause => (l.settle slot o clock).2.board.batch = l.board.batch ∧
            (l.settle slot o clock).2.failures = l.failures.push ⟨p.node, cause⟩) := by
  unfold settle
  rw [hp]
  cases o with
  | ok points => exact ⟨rfl, rfl, rfl, rfl, rfl⟩
  | error cause => exact ⟨rfl, rfl, rfl, rfl, rfl⟩

end Ledger

namespace Cycle

variable {c c' : Cycle} {s : Step} {slot : Nat}

/-- Settling a slot out of which no node can be taken changes nothing. -/
theorem settleSlot_of_pending_none (hp : c.ledger.board.pending? slot = none)
    (f : String → NodeOutcome) (clock : WallClock) : c.settleSlot slot f clock = c := by
  unfold settleSlot
  rw [hp]

/-- Settling a slot changes at most the ledger, and of the board's slots at most this one. -/
theorem settleSlot_frame (c : Cycle) (slot : Nat) (f : String → NodeOutcome) (clock : WallClock) :
    ∃ l, c.settleSlot slot f clock = { c with ledger := l } ∧
      l.board.closed = c.ledger.board.closed ∧ l.board.pending? slot = none ∧
      (l.board.slots = c.ledger.board.slots ∨
        l.board.slots = c.ledger.board.slots.set slot none) := by
  cases hp : c.ledger.board.pending? slot with
  | none =>
    refine ⟨c.ledger, settleSlot_of_pending_none hp f clock, rfl, hp, .inl rfl⟩
  | some p =>
    obtain ⟨-, hclosed, hslots, -⟩ := Ledger.settle_of_pending hp (f p.node) clock
    refine ⟨(c.ledger.settle slot (f p.node) clock).2, ?_, hclosed, ?_, .inr hslots⟩
    · unfold settleSlot
      rw [hp]
    · rw [Board.pending?, hslots, List.getElem?_set_self']
      split
      · rfl
      · cases c.ledger.board.slots[slot]? <;> rfl

/-- A step of a task settles the slot of the task. -/
theorem step?_of_slot? (hs : s.slot? = some slot) (h : c.step? s = some c') :
    ∃ f clock, c' = c.settleSlot slot f clock := by
  cases s with
  | settle k attempt took clock =>
    obtain rfl := Option.some.inj hs
    exact ⟨_, clock, (Option.some.inj h).symm⟩
  | giveUp k reason clock =>
    obtain rfl := Option.some.inj hs
    exact ⟨_, clock, (step?_giveUp.mp h).2⟩
  | _ => cases hs

/-- No task can settle a slot out of which no node can be taken. -/
theorem step?_of_pending_none (hp : c.ledger.board.pending? slot = none)
    (hs : s.slot? = some slot) (h : c.step? s = some c') : c' = c := by
  obtain ⟨f, clock, rfl⟩ := step?_of_slot? hs h
  exact settleSlot_of_pending_none hp f clock

/-- A step that can be taken is taken. -/
theorem step_of_step? (h : c.step? s = some c') : c.step s = c' := by
  rw [step, h, Option.getD_some]

theorem step_of_pending_none (hp : c.ledger.board.pending? slot = none)
    (hs : s.slot? = some slot) : c.step s = c := by
  cases h : c.step? s with
  | none => rw [step, h, Option.getD_none]
  | some c' => rw [step_of_step? h, step?_of_pending_none hp hs h]

/-- A step of the cycle itself keeps the board, puts a node on it or closes it; and the scope around
the cycle is canceled only from outside. -/
theorem step?_frame (hs : s.slot? = none) (h : c.step? s = some c') :
    (c'.ledger.board = c.ledger.board ∨
      (∃ name now, c'.ledger.board = c.ledger.board.track name now) ∨
      c'.ledger.board = c.ledger.board.close) ∧
    (c'.parentCanceled = true → c.parentCanceled = true ∨ s = .cancelParent) := by
  cases s with
  | settle slot attempt took clock => cases hs
  | giveUp slot reason clock => cases hs
  | cancelParent =>
    cases h
    exact ⟨.inl rfl, fun _ => .inr rfl⟩
  | expire =>
    cases h
    exact ⟨.inl rfl, .inl⟩
  | start now =>
    obtain ⟨index, node, rest, -, rfl⟩ := step?_start.mp h
    cases hn : node.name.isEmpty with
    | true => exact ⟨.inl rfl, .inl⟩
    | false => exact ⟨.inr (.inl ⟨node.name, now, rfl⟩), .inl⟩
  | started =>
    obtain ⟨index, -, rfl⟩ := step?_started.mp h
    exact ⟨.inl rfl, .inl⟩
  | drained =>
    obtain ⟨-, -, rfl⟩ := step?_drained.mp h
    exact ⟨.inl rfl, .inl⟩
  | cutOff =>
    obtain ⟨-, -, rfl⟩ := step?_cutOff.mp h
    exact ⟨.inl rfl, .inl⟩
  | cancelSelf =>
    obtain ⟨allSettled, -, rfl⟩ := step?_cancelSelf.mp h
    exact ⟨.inl rfl, .inl⟩
  | abort =>
    obtain ⟨-, rfl⟩ := step?_abort.mp h
    exact ⟨.inl rfl, .inl⟩
  | close =>
    obtain ⟨-, rfl⟩ := step?_close.mp h
    exact ⟨.inr (.inr rfl), .inl⟩
  | leaveOut later =>
    obtain ⟨batch, p, left, -, rfl⟩ := step?_leaveOut.mp h
    exact ⟨.inl rfl, .inl⟩
  | count =>
    obtain ⟨batch, -, rfl⟩ := step?_count.mp h
    exact ⟨.inl rfl, .inl⟩
  | collect =>
    obtain ⟨batch, -, rfl⟩ := step?_collect.mp h
    exact ⟨.inl rfl, .inl⟩

theorem step?_parentCanceled (h : c.step? s = some c') (hp : c'.parentCanceled = true) :
    c.parentCanceled = true ∨ s = .cancelParent := by
  cases hs : s.slot? with
  | none => exact (step?_frame hs h).2 hp
  | some slot =>
    obtain ⟨f, clock, rfl⟩ := step?_of_slot? hs h
    obtain ⟨l, hl, -⟩ := settleSlot_frame c slot f clock
    rw [hl] at hp
    exact .inl hp

/-- A closed board stays closed. -/
theorem step?_closed (h : c.step? s = some c') (hc : c.ledger.board.closed = true) :
    c'.ledger.board.closed = true := by
  cases hs : s.slot? with
  | none =>
    rcases (step?_frame hs h).1 with hb | ⟨name, now, hb⟩ | hb
    · rw [hb, hc]
    · rw [hb]
      exact hc
    · rw [hb]
      rfl
  | some slot =>
    obtain ⟨f, clock, rfl⟩ := step?_of_slot? hs h
    obtain ⟨l, hl, hclosed, -⟩ := settleSlot_frame c slot f clock
    rw [hl]
    exact hclosed.trans hc

/-- A node that has left its slot never comes back. -/
theorem step?_gone (h : c.step? s = some c')
    (hg : slot < c.ledger.board.slots.length ∧ c.ledger.board.pending? slot = none) :
    slot < c'.ledger.board.slots.length ∧ c'.ledger.board.pending? slot = none := by
  obtain ⟨hlt, hp⟩ := hg
  cases hs : s.slot? with
  | none =>
    rcases (step?_frame hs h).1 with hb | ⟨name, now, hb⟩ | hb
    · rw [hb]
      exact ⟨hlt, hp⟩
    · rw [hb]
      refine ⟨by simp only [Board.track, List.length_append]; omega, ?_⟩
      rw [← hp, Board.pending?, Board.pending?, Board.track, List.getElem?_append_left hlt]
    · rw [hb]
      exact ⟨by simpa [Board.close] using hlt, rfl⟩
  | some k =>
    obtain ⟨f, clock, rfl⟩ := step?_of_slot? hs h
    obtain ⟨l, hl, hclosed, hk, hslots⟩ := settleSlot_frame c k f clock
    rw [hl]
    rcases hslots with hslots | hslots
    · exact ⟨hslots ▸ hlt, by rw [← hp, Board.pending?, Board.pending?, hclosed, hslots]⟩
    · refine ⟨by simpa [hslots] using hlt, ?_⟩
      by_cases he : slot = k
      · exact he ▸ hk
      · rw [← hp, Board.pending?, Board.pending?, hclosed, hslots,
          List.getElem?_set_ne (Ne.symm he)]

end Cycle

end NodeScrape
