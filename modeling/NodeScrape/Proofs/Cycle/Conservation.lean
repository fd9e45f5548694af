import NodeScrape.Proofs.Cycle.Tally
import NodeScrape.Proofs.Cycle.Writes
import NodeScrape.Proofs.Failure.Collector
import NodeScrape.Proofs.Instruments.History

/-!
# What a cycle has told and has still to tell

A cycle strikes a node off those outstanding when it notes a latency for it, holds points of the
nodes that it marks, and has counted itself when it is about to return. So what a step writes to the
instruments is what it changes of these three.
-/

namespace NodeScrape

namespace Board

/-- A node that is taken out of its slot is awaited no longer, and the others keep their order. -/
theorem unsettled_clear {b : Board} {slot : Nat} {p : Pending} (hp : b.pending? slot = some p) :
    b.unsettled.Perm (p :: (b.clear slot).unsettled) := by
  have hslot : b.slots[slot]? = some (some p) := by
    simpa [pending?, opened_of_pending hp, Option.join_eq_some_iff] using hp
  obtain ⟨before, after, hslots, -, hset⟩ := exists_append_set hslot none
  rw [unsettled, unsettled, clear, hset, hslots, List.filterMap_append, List.filterMap_append]
  exact List.perm_middle

/-- A board that is closed holds nothing any more. -/
def HoldsNothingClosed (b : Board) : Prop := b.closed = true → b.batch = {} ∧ b.unsettled = []

theorem holdsNothingClosed_close (b : Board) : b.close.HoldsNothingClosed := by
  refine fun _ => ⟨rfl, List.filterMap_eq_nil_iff.mpr fun o ho => ?_⟩
  obtain ⟨_, _, rfl⟩ := List.mem_map.mp ho
  rfl

end Board

namespace Pending

open Instruments

/-- Whatever a node came to, its latency is noted once. -/
theorem observed_settling (p : Pending) (o : NodeOutcome) (clock : WallClock) :
    (p.settling o clock).filterMap Update.observed? = [p.node] := by
  cases o <;> rfl

/-- A node is marked exactly where it came to points. -/
theorem marked_settling (p : Pending) (o : NodeOutcome) (clock : WallClock) :
    (p.settling o clock).filterMap Update.marked? = match o with
      | .ok _ => [(p.node, clock.now)]
      | .error _ => [] := by
  cases o <;> rfl

theorem counted_settling (p : Pending) (o : NodeOutcome) (clock : WallClock) :
    (p.settling o clock).filterMap Update.counted? = [] := by
  cases o <;> rfl

end Pending

namespace Cycle

open Instruments

/-- The nodes for which a cycle has still to note a latency. -/
def outstanding (c : Cycle) : List String :=
  c.ledger.board.unsettled.map Pending.node ++ match c.stage with
    | .starting _ rest => (namedNodes rest).map Node.name
    | .closed _ left => left.map Pending.node
    | _ => []

/-- The points of nodes that a cycle holds. -/
def gathered (c : Cycle) : List NodePoint :=
  (match c.stage with
    | .closed batch _ | .counted batch | .returned batch _ => batch.nodes
    | _ => []) ++ c.ledger.board.batch.nodes

/-- What a cycle has counted itself as. -/
def told (c : Cycle) : List Bool := match c.stage with
  | .counted _ => [c.ledger.failures.isEmpty]
  | .returned _ failure => [failure.isNone]
  | _ => []

/-- The node that a step makes successful, and the reading of the clock then. -/
def successAt? (c : Cycle) : Step → Option (String × WallTime)
  | .settle slot attempt took clock => (c.ledger.board.pending? slot).bind fun p =>
    match attempt.outcome p.node took with
    | .ok _ => some (p.node, clock.now)
    | .error _ => none
  | _ => none

/-- What is written between two states of a cycle is what they differ in. -/
structure Balanced (c : Cycle) (updates : List Update) (c' : Cycle) : Prop where
  outstanding : c.outstanding.Perm (updates.filterMap Update.observed? ++ c'.outstanding)
  gathered : c'.gathered.map NodePoint.name =
    c.gathered.map NodePoint.name ++ (updates.filterMap Update.marked?).map Prod.fst
  told : c'.told = c.told ++ updates.filterMap Update.counted?

variable {nodes : List Node} {c c' : Cycle} {R : Register} {s : Step} {slot : Nat}

/-- Where nothing is written the two states differ in nothing that is told. -/
theorem balanced_nil (ho : c'.outstanding = c.outstanding) (hg : c'.gathered = c.gathered)
    (ht : c'.told = c.told) : Balanced c [] c' where
  outstanding := ho ▸ .refl _
  gathered := by simp [hg]
  told := by simp [ht]

/-- Settling an awaited node changes the ledger alone. -/
theorem settleSlot_of_pending {p : Pending} (hp : c.ledger.board.pending? slot = some p)
    (f : String → NodeOutcome) (clock : WallClock) :
    c.settleSlot slot f clock = { c with ledger := (c.ledger.settle slot (f p.node) clock).2 } := by
  unfold settleSlot
  rw [hp]

/-- The task of a slot notes a latency for the node that it strikes off those outstanding, and marks
the node exactly if it comes to points. -/
theorem balanced_settleSlot {f : String → NodeOutcome}
    (hf : ∀ name q, f name = .ok q → q.node.name = name) (clock : WallClock)
    (hclosed : ∀ batch, c.stage = .counted batch → c.ledger.board.closed = true) :
    Balanced c (c.settleWrites slot f clock) (c.settleSlot slot f clock) := by
  cases hp : c.ledger.board.pending? slot with
  | none =>
    rw [settleWrites_of_pending_none hp, settleSlot_of_pending_none hp]
    exact balanced_nil rfl rfl rfl
  | some p =>
    obtain ⟨-, -, hslots, hbatch⟩ := Ledger.settle_of_pending hp (f p.node) clock
    rw [settleWrites_of_pending hp, settleSlot_of_pending hp]
    refine ⟨?_, ?_, ?_⟩
    · have hunsettled : (c.ledger.settle slot (f p.node) clock).2.board.unsettled =
          (c.ledger.board.clear slot).unsettled := by
        rw [Board.unsettled, hslots]
        rfl
      rw [Pending.observed_settling, outstanding, outstanding, hunsettled]
      exact ((Board.unsettled_clear hp).map Pending.node).append_right _
    · rw [Pending.marked_settling, gathered, gathered]
      cases ho : f p.node with
      | ok q =>
        rw [ho] at hbatch
        simp [hbatch.1, Batch.add, hf p.node q ho]
      | error cause =>
        rw [ho] at hbatch
        simp [hbatch.1]
    · rw [Pending.counted_settling, List.append_nil, told, told]
      cases hstage : c.stage with
      | counted batch =>
        rw [Board.pending?_of_closed (hclosed batch hstage)] at hp
        cases hp
      | _ => rfl

/-- What a step marks is what it makes successful. -/
theorem marked_writesAt (c : Cycle) (s : Step) :
    (c.writesAt s).filterMap Update.marked? = (c.successAt? s).toList := by
  cases s with
  | settle slot attempt took clock =>
    rw [writesAt, successAt?]
    cases hp : c.ledger.board.pending? slot with
    | none =>
      rw [settleWrites_of_pending_none hp]
      rfl
    | some p =>
      rw [settleWrites_of_pending hp, Pending.marked_settling, Option.bind_some]
      cases attempt.outcome p.node took <;> rfl
  | giveUp slot reason clock =>
    rw [writesAt]
    cases hp : c.ledger.board.pending? slot with
    | none =>
      rw [settleWrites_of_pending_none hp]
      rfl
    | some p =>
      rw [settleWrites_of_pending hp]
      rfl
  | leaveOut later =>
    rw [writesAt]
    split <;> rfl
  | count =>
    rw [writesAt]
    split <;> rfl
  | _ => rfl

/-- The collector of a cycle counts right, and a board that is closed holds nothing. -/
structure Orderly (c : Cycle) : Prop where
  counts : c.ledger.failures.CountsRight
  emptied : c.ledger.board.HoldsNothingClosed

theorem orderly_begin (nodes : List Node) (instruments : Instruments) :
    Orderly (begin nodes instruments) :=
  ⟨rfl, nofun⟩

theorem Orderly.settleSlot (h : Orderly c) (slot : Nat) (f : String → NodeOutcome)
    (clock : WallClock) : Orderly (c.settleSlot slot f clock) := by
  cases hp : c.ledger.board.pending? slot with
  | none => rwa [settleSlot_of_pending_none hp]
  | some p =>
    obtain ⟨-, hclosed, -, hbatch⟩ := Ledger.settle_of_pending hp (f p.node) clock
    rw [settleSlot_of_pending hp]
    refine ⟨?_, fun hc => ?_⟩
    · cases ho : f p.node with
      | ok q =>
        rw [ho] at hbatch
        exact hbatch.2 ▸ h.counts
      | error cause =>
        rw [ho] at hbatch
        exact hbatch.2 ▸ h.counts.push _
    · rw [hclosed, Board.opened_of_pending hp] at hc
      cases hc

/-- At a stage that carries nothing, what is outstanding and gathered is on the board. -/
theorem eq_of_isBare (h : c.stage.isBare = true) :
    c.outstanding = c.ledger.board.unsettled.map Pending.node ∧
      c.gathered = c.ledger.board.batch.nodes ∧ c.told = [] := by
  cases hstage : c.stage with
  | starting index rest =>
    cases rest with
    | nil => simp [outstanding, gathered, told, hstage, namedNodes]
    | cons n rest =>
      rw [hstage] at h
      cases h
  | gathering => simp [outstanding, gathered, told, hstage]
  | stopped allSettled => simp [outstanding, gathered, told, hstage]
  | canceled allSettled => simp [outstanding, gathered, told, hstage]
  | aborted => simp [outstanding, gathered, told, hstage]
  | _ =>
    rw [hstage] at h
    cases h

theorem writesAt_of_keepsLedger (c : Cycle) (hk : s.keepsLedger = true) : c.writesAt s = [] := by
  cases s with
  | settle slot attempt took clock => cases hk
  | giveUp slot reason clock => cases hk
  | leaveOut later => cases hk
  | count => cases hk
  | _ => rfl

/-- A step that keeps the ledger writes nothing, and nothing that is told differs after it. -/
theorem Orderly.keepsLedger (h : Orderly c) (hk : s.keepsLedger = true)
    (hs : c.step? s = some c') : Orderly c' ∧ Balanced c (c.writesAt s) c' := by
  obtain ⟨hledger, hstage⟩ := step?_keepsLedger hk hs
  rw [writesAt_of_keepsLedger c hk]
  refine ⟨⟨hledger ▸ h.counts, hledger ▸ h.emptied⟩, ?_⟩
  rcases hstage with hstage | ⟨hbare, hbare'⟩
  · refine balanced_nil ?_ ?_ ?_
    · rw [outstanding, outstanding, hledger, hstage]
    · rw [gathered, gathered, hledger, hstage]
    · rw [told, told, hledger, hstage]
  · obtain ⟨houtstanding, hgathered, htold⟩ := eq_of_isBare hbare
    obtain ⟨houtstanding', hgathered', htold'⟩ := eq_of_isBare hbare'
    exact balanced_nil (by rw [houtstanding, houtstanding', hledger])
      (by rw [hgathered, hgathered', hledger]) (htold'.trans htold.symm)

/-- The next listed node goes from the nodes to start to the board, or fails at once. -/
theorem Orderly.start {now : WallTime} (h : Orderly c) (ht : Tally nodes c R)
    (hs : c.step? (.start now) = some c') : Orderly c' ∧ Balanced c [] c' := by
  obtain ⟨index, n, rest, hstage, rfl⟩ := step?_start.mp hs
  simp only [Tally, hstage] at ht
  obtain ⟨-, -, -, -, hshow⟩ := ht
  cases hn : n.name.isEmpty with
  | true =>
    refine ⟨⟨h.counts.push _, h.emptied⟩, balanced_nil ?_ ?_ ?_⟩
    · simp [outstanding, hstage, namedNodes, hn, Ledger.fail]
    · simp [gathered, hstage, Ledger.fail]
    · simp [told, hstage]
  | false =>
    refine ⟨⟨h.counts, fun hc => ?_⟩, balanced_nil ?_ ?_ ?_⟩
    · exact absurd (hshow.opened.symm.trans hc) Bool.false_ne_true
    · simp [outstanding, hstage, namedNodes, hn, Ledger.track, Board.track, Board.unsettled]
    · simp [gathered, hstage, Ledger.track, Board.track]
    · simp [told, hstage]

/-- The board hands its batch and its nodes over to the cycle. -/
theorem Orderly.close (h : Orderly c) (hs : c.step? .close = some c') :
    Orderly c' ∧ Balanced c [] c' := by
  obtain ⟨hstage, rfl⟩ := step?_close.mp hs
  have hempty := Board.holdsNothingClosed_close c.ledger.board
  obtain ⟨hbatch, hnone⟩ := hempty rfl
  have hbare : c.stage.isBare = true := by
    rcases hstage with hstage | hstage
    · rw [hstage]
      rfl
    · rw [hstage]
      rfl
  obtain ⟨houtstanding, hgathered, htold⟩ := eq_of_isBare hbare
  refine ⟨⟨h.counts, hempty⟩, balanced_nil ?_ ?_ ?_⟩
  · rw [houtstanding]
    simp [outstanding, hnone]
  · rw [hgathered]
    simp [gathered, hbatch]
  · rw [htold]
    rfl

/-- A node that is left out has its latency noted and is outstanding no longer. -/
theorem Orderly.leaveOut {later : WallTime} (h : Orderly c)
    (hs : c.step? (.leaveOut later) = some c') :
    Orderly c' ∧ Balanced c (c.writesAt (.leaveOut later)) c' := by
  obtain ⟨batch, p, left, hstage, rfl⟩ := step?_leaveOut.mp hs
  refine ⟨⟨h.counts.push _, h.emptied⟩, ?_, ?_, ?_⟩
  · simp only [outstanding, hstage, writesAt]
    exact List.perm_middle
  · simp [gathered, hstage, Ledger.leaveOut, Ledger.observe, Ledger.fail, writesAt,
      Update.marked?]
  · simp [told, hstage, writesAt, Update.counted?]

/-- A cycle counts itself once nothing is outstanding. -/
theorem Orderly.count (h : Orderly c) (hs : c.step? .count = some c') :
    Orderly c' ∧ Balanced c (c.writesAt .count) c' := by
  obtain ⟨batch, hstage, rfl⟩ := step?_count.mp hs
  refine ⟨⟨h.counts, h.emptied⟩, ?_, ?_, ?_⟩
  · simp only [outstanding, hstage, writesAt]
    exact .refl _
  · simp [gathered, hstage, writesAt, Update.marked?]
  · simp [told, hstage, writesAt, Update.counted?]

/-- A cycle returns a failure exactly if it has counted itself as failed. -/
theorem Orderly.collect (h : Orderly c) (hs : c.step? .collect = some c') :
    Orderly c' ∧ Balanced c [] c' := by
  obtain ⟨batch, hstage, rfl⟩ := step?_collect.mp hs
  refine ⟨⟨c.ledger.failures.countsRight_take, h.emptied⟩, balanced_nil ?_ ?_ ?_⟩
  · simp [outstanding, hstage]
  · simp [gathered, hstage]
  · simp [told, hstage, h.counts.isEmpty_eq]

/-- Every step of an orderly cycle leaves it orderly, and writes what it changes. -/
theorem Orderly.step (h : Orderly c) (ht : Tally nodes c R) (hs : c.step? s = some c') :
    Orderly c' ∧ Balanced c (c.writesAt s) c' := by
  have hclosed (batch : Batch) (hstage : c.stage = .counted batch) :
      c.ledger.board.closed = true := by
    simp only [Tally, hstage] at ht
    exact ht.2.2
  by_cases hk : s.keepsLedger = true
  · exact h.keepsLedger hk hs
  cases s with
  | settle slot attempt took clock =>
    cases hs
    exact ⟨h.settleSlot slot _ clock,
      balanced_settleSlot (fun name q hq => Attempt.name_of_outcome hq) clock hclosed⟩
  | giveUp slot reason clock =>
    obtain ⟨-, rfl⟩ := step?_giveUp.mp hs
    have hnone (name : String) (q : NodePoints)
        (hq : (.error (.ofReason reason) : NodeOutcome) = .ok q) : q.node.name = name := by
      cases hq
    exact ⟨h.settleSlot slot _ clock, balanced_settleSlot hnone clock hclosed⟩
  | start now => exact h.start ht hs
  | close => exact h.close hs
  | leaveOut later => exact h.leaveOut hs
  | count => exact h.count hs
  | collect => exact h.collect hs
  | _ => exact absurd rfl hk

/-- A cycle that has returned has no latency to note any more, holds the points of its batch, and has
counted itself by whether it returned a failure. -/
theorem Orderly.of_result? {batch : Batch} {failure : Option AggregateFailure} (h : Orderly c)
    (ht : Tally nodes c R) (hr : c.result? = some (batch, failure)) :
    c.outstanding = [] ∧ c.gathered = batch.nodes ∧ c.told = [failure.isNone] := by
  have hstage := stage_of_result? hr
  have hclosed : c.ledger.board.closed = true := by
    simp only [Tally, hstage] at ht
    exact ht.2.2
  obtain ⟨hbatch, hunsettled⟩ := h.emptied hclosed
  refine ⟨?_, ?_, ?_⟩
  · rw [outstanding, hunsettled, hstage]
    rfl
  · rw [gathered, hbatch, hstage]
    exact List.append_nil _
  · rw [told, hstage]

end Cycle

end NodeScrape
