import NodeScrape.Proofs.Cycle.Register
import NodeScrape.Proofs.Cycle.Step

/-!
# Registers kept beside a cycle

A register tallies with a cycle when it accounts for what the cycle has gathered and noted so far
and awaits exactly the nodes that the cycle awaits. Every step of the cycle, by whichever task it is
taken, leaves a register that tallies, and an entry only ever changes from awaited to ended.
-/

namespace NodeScrape

/-- A board that is not closed awaits exactly the nodes that a register awaits. -/
structure Board.Shows (b : Board) (R : Register) : Prop where
  opened : b.closed = false
  slots : b.slots.map (Option.map Pending.node) = R.map Entry.awaited?

namespace Board

/-- The node that can be taken out of a slot has an awaited entry. -/
theorem Shows.getElem?_of_pending {b : Board} {R : Register} (h : b.Shows R) {slot : Nat}
    {p : Pending} (hp : b.pending? slot = some p) : R[slot]? = some ⟨p.node, none⟩ := by
  have hslot : b.slots[slot]? = some (some p) := by
    simpa [pending?, h.opened, Option.join_eq_some_iff] using hp
  have hmap := congrArg (fun l => l[slot]?) h.slots
  simp only [List.getElem?_map, hslot, Option.map_some] at hmap
  obtain ⟨⟨name, outcome⟩, he, hname⟩ := Option.map_eq_some_iff.mp hmap.symm
  cases outcome with
  | none =>
    obtain rfl : name = p.node := Option.some.inj hname
    exact he
  | some o => cases hname

/-- The node of an awaited entry can be taken out of its slot. -/
theorem Shows.exists_pending {b : Board} {R : Register} (h : b.Shows R) {slot : Nat}
    {name : String} (hR : R[slot]? = some ⟨name, none⟩) :
    ∃ p, b.pending? slot = some p ∧ p.node = name := by
  have hmap := congrArg (fun l => l[slot]?) h.slots
  simp only [List.getElem?_map, hR, Option.map_some, Entry.awaited?_none] at hmap
  obtain ⟨o, ho, hname⟩ := Option.map_eq_some_iff.mp hmap
  obtain ⟨p, rfl, hp⟩ := Option.map_eq_some_iff.mp hname
  exact ⟨p, by simp [pending?, h.opened, ho], hp⟩

/-- An entry that says what its node came to belongs to an empty slot. -/
theorem Shows.pending?_of_outcome {b : Board} {R : Register} (h : b.Shows R) {slot : Nat}
    {o : NodeOutcome} (ho : R.outcome? slot = some o) : b.pending? slot = none := by
  cases hp : b.pending? slot with
  | none => rfl
  | some p =>
    rw [Register.outcome?, h.getElem?_of_pending hp] at ho
    cases ho

theorem Shows.awaited {b : Board} {R : Register} (h : b.Shows R) :
    R.awaited = b.unsettled.map Pending.node := by
  have hmap := congrArg (List.filterMap id) h.slots
  rw [List.filterMap_map, List.filterMap_map] at hmap
  rw [unsettled, List.map_filterMap]
  exact hmap.symm

/-- A board is drained exactly when no entry is awaited. -/
theorem Shows.isDrained_iff {b : Board} {R : Register} (h : b.Shows R) :
    b.isDrained = true ↔ R.awaited = [] := by
  rw [h.awaited, List.map_eq_nil_iff, unsettled, List.filterMap_eq_nil_iff, isDrained,
    List.all_eq_true]
  simp only [Option.isNone_iff_eq_none, id]

theorem Shows.track {b : Board} {R : Register} (h : b.Shows R) (name : String)
    (start : WallTime) : (b.track name start).Shows (R ++ [⟨name, none⟩]) :=
  ⟨h.opened, by simp [Board.track, h.slots]⟩

theorem Shows.clear {b : Board} {R : Register} (h : b.Shows R) (slot : Nat) (name : String)
    (o : NodeOutcome) : (b.clear slot).Shows (R.enter slot name o) :=
  ⟨h.opened, by simp [Board.clear, Register.enter, List.map_set, h.slots]⟩

end Board

/-- Taking out the failures takes out all of them. -/
theorem FailureCollector.take_causes (f : FailureCollector) :
    f.take.1.elim [] AggregateFailure.causes = f.causes := by
  unfold FailureCollector.take
  by_cases hf : f.causes = []
  · simp [hf]
  · simp [hf]

/-- Apart from an unusable summary and from breaking off, a client makes a node fail only by failing
so itself. -/
theorem Attempt.eq_failed_of_outcome {a : Attempt} {node : String} {took : Duration}
    {cause : FetchFailure} (h : a.outcome node took = .error cause)
    (hsummary : ∀ text, cause ≠ .invalidSummary text) (hpanic : ∀ text, cause ≠ .panicked text) :
    a = .failed cause := by
  cases a with
  | answered summary =>
    rw [outcome] at h
    cases hpoints : summary.points node with
    | ok points =>
      rw [hpoints] at h
      cases h
    | error defect =>
      rw [hpoints] at h
      cases h
      exact absurd rfl (hsummary _)
  | failed failure =>
    cases h
    rfl
  | panicked payload =>
    cases h
    exact absurd rfl (hpanic _)

/-- Only a client that fails so itself makes a node canceled. -/
theorem Attempt.eq_failed_of_canceled {a : Attempt} {node : String} {took : Duration}
    (h : a.outcome node took = .error .canceled) : a = .failed .canceled :=
  eq_failed_of_outcome h nofun nofun

/-- What a client did never makes points under another name than the listed one. -/
theorem Attempt.name_of_outcome {a : Attempt} {node : String} {took : Duration} {p : NodePoints}
    (h : a.outcome node took = .ok p) : p.node.name = node := by
  cases a with
  | answered summary =>
    simp only [outcome, Summary.points] at h
    split at h
    · cases h
    · split at h
      · cases h
        rfl
      · cases h
  | failed failure => cases h
  | panicked payload => cases h

namespace Cycle

/-- What a step makes the node of a slot come to, if it is the step that settles the slot. -/
def outcomeAt? (c : Cycle) (s : Step) (slot : Nat) : Option NodeOutcome :=
  (c.ledger.board.pending? slot).bind fun p => match s with
    | .settle k attempt took _ => if k = slot then some (attempt.outcome p.node took) else none
    | .giveUp k reason _ => if k = slot then some (.error (.ofReason reason)) else none
    | _ => none

/-- What the node of a slot comes to by the first step of a run that finds it awaited. -/
def verdict? (c : Cycle) (slot : Nat) : List Step → Option NodeOutcome
  | [] => none
  | s :: rest => (c.outcomeAt? s slot).or ((c.step s).verdict? slot rest)

/-- Whether a step neither puts a node on the board nor brings one to its end. -/
def Step.isQuiet : Step → Bool
  | .settle .. | .giveUp .. | .start _ | .leaveOut _ => false
  | _ => true

/-- A register tallies with a cycle over listed nodes. Before its board is closed the cycle awaits
the nodes in its slots, and from then on those that it has not yet left out. -/
def Tally (nodes : List Node) (c : Cycle) (R : Register) : Prop :=
  match c.stage with
  | .starting index rest => ∃ started, started ++ rest = nodes ∧ index = started.length ∧
      Accounts started R c.ledger.board.batch c.ledger.failures.causes ∧ c.ledger.board.Shows R
  | .closed batch left => Accounts nodes R batch c.ledger.failures.causes ∧
      R.awaited = left.map Pending.node ∧ c.ledger.board.closed = true
  | .counted batch => Accounts nodes R batch c.ledger.failures.causes ∧
      R.awaited = [] ∧ c.ledger.board.closed = true
  | .returned batch failure => Accounts nodes R batch (failure.elim [] AggregateFailure.causes) ∧
      R.awaited = [] ∧ c.ledger.board.closed = true
  | _ => Accounts nodes R c.ledger.board.batch c.ledger.failures.causes ∧ c.ledger.board.Shows R

/-- What a register says after a step is what it said before and what the step made of a slot, or,
of a node that was left out, that it came too late. -/
def Follows (c : Cycle) (s : Step) (R R' : Register) : Prop :=
  ∀ slot, R'.outcome? slot = (R.outcome? slot).or (c.outcomeAt? s slot) ∨
    R.outcome? slot = none ∧ c.ledger.board.closed = true ∧
      R'.outcome? slot = some (.error (Ledger.lateCause c.parentCanceled))

/-- A cycle that has not begun tallies with the register without entries. -/
theorem tally_begin (nodes : List Node) (instruments : Instruments) :
    Tally nodes (begin nodes instruments) [] :=
  ⟨[], rfl, rfl, Accounts.nil, rfl, rfl⟩

variable {nodes : List Node} {c c' : Cycle} {R : Register} {s : Step} {slot : Nat}

/-- Only the task of a slot brings its node to an end. -/
theorem outcomeAt?_of_slot? (h : s.slot? ≠ some slot) : c.outcomeAt? s slot = none := by
  unfold outcomeAt?
  cases c.ledger.board.pending? slot with
  | none => rfl
  | some p =>
    cases s with
    | settle k attempt took clock =>
      have hk : k ≠ slot := fun he => h (congrArg some he)
      simp [hk]
    | giveUp k reason clock =>
      have hk : k ≠ slot := fun he => h (congrArg some he)
      simp [hk]
    | _ => rfl

/-- A node comes to an end by its client's result or by the end of its scope. -/
theorem outcomeAt?_eq_some {o : NodeOutcome} :
    c.outcomeAt? s slot = some o ↔ ∃ p, c.ledger.board.pending? slot = some p ∧
      ((∃ attempt took clock, s = .settle slot attempt took clock ∧
          o = attempt.outcome p.node took) ∨
        ∃ reason clock, s = .giveUp slot reason clock ∧ o = .error (.ofReason reason)) := by
  rw [outcomeAt?, Option.bind_eq_some_iff]
  refine exists_congr fun p => and_congr_right fun _ => ?_
  cases s with
  | settle k attempt took clock =>
    by_cases hk : k = slot
    · simp [hk, eq_comm (a := o)]
    · simp [hk]
  | giveUp k reason clock =>
    by_cases hk : k = slot
    · simp [hk, eq_comm (a := o)]
    · simp [hk]
  | _ => simp

theorem outcomeAt?_of_pending_none (h : c.ledger.board.pending? slot = none) :
    c.outcomeAt? s slot = none := by
  simp [outcomeAt?, h]

/-- A step that ends no node leaves the register as it is. -/
theorem follows_refl (h : ∀ slot, c.outcomeAt? s slot = none) (R : Register) :
    Follows c s R R :=
  fun slot => .inl (by rw [h slot, Option.or_none])

/-- As long as the board is open, only the ledger and the started nodes matter to a register. -/
theorem Tally.opened (h : Tally nodes c R) (ho : c.ledger.board.closed = false) :
    ∃ started, started <+: nodes ∧
      Accounts started R c.ledger.board.batch c.ledger.failures.causes ∧ c.ledger.board.Shows R ∧
      ∀ l R', Accounts started R' l.board.batch l.failures.causes → l.board.Shows R' →
        Tally nodes { c with ledger := l } R' := by
  obtain ⟨stage, ledger, parentCanceled, selfCanceled, expired⟩ := c
  cases stage with
  | starting index rest =>
    obtain ⟨started, happ, hlen, hacc, hshow⟩ := h
    exact ⟨started, ⟨rest, happ⟩, hacc, hshow, fun l R' hl hb => ⟨started, happ, hlen, hl, hb⟩⟩
  | gathering => exact ⟨nodes, nodes.prefix_refl, h.1, h.2, fun l R' hl hb => ⟨hl, hb⟩⟩
  | stopped allSettled => exact ⟨nodes, nodes.prefix_refl, h.1, h.2, fun l R' hl hb => ⟨hl, hb⟩⟩
  | canceled allSettled => exact ⟨nodes, nodes.prefix_refl, h.1, h.2, fun l R' hl hb => ⟨hl, hb⟩⟩
  | aborted => exact ⟨nodes, nodes.prefix_refl, h.1, h.2, fun l R' hl hb => ⟨hl, hb⟩⟩
  | closed batch left => exact absurd (ho.symm.trans h.2.2) (by decide)
  | counted batch => exact absurd (ho.symm.trans h.2.2) (by decide)
  | returned batch failure => exact absurd (ho.symm.trans h.2.2) (by decide)

/-- The node awaited in a slot bears the name of the named node of this number. -/
theorem Tally.name_of_pending (h : Tally nodes c R) {p : Pending}
    (hp : c.ledger.board.pending? slot = some p) :
    ((namedNodes nodes).map Node.name)[slot]? = some p.node := by
  obtain ⟨started, ⟨rest, rfl⟩, hacc, hshow, -⟩ := h.opened (Board.opened_of_pending hp)
  have hname : ((namedNodes started).map Node.name)[slot]? = some p.node := by
    rw [← hacc.names, List.getElem?_map, hshow.getElem?_of_pending hp]
    rfl
  obtain ⟨hlt, -⟩ := List.getElem?_eq_some_iff.mp hname
  have happ : (namedNodes (started ++ rest)).map Node.name =
      (namedNodes started).map Node.name ++ (namedNodes rest).map Node.name := by
    simp only [namedNodes, List.filter_append, List.map_append]
  rw [happ, List.getElem?_append_left hlt]
  exact hname

/-- A slot that is settled gets the entry of what its node came to. -/
theorem Tally.settleSlot (h : Tally nodes c R) {p : Pending}
    (hp : c.ledger.board.pending? slot = some p) {f : String → NodeOutcome}
    (hf : ∀ q, f p.node = .ok q → q.node.name = p.node) (clock : WallClock) :
    Tally nodes (c.settleSlot slot f clock) (R.enter slot p.node (f p.node)) := by
  obtain ⟨started, -, hacc, hshow, hframe⟩ := h.opened (Board.opened_of_pending hp)
  have hslot := hshow.getElem?_of_pending hp
  have hclear := hshow.clear slot p.node (f p.node)
  obtain ⟨-, hclosed, hslots, hbatch⟩ := Ledger.settle_of_pending hp (f p.node) clock
  have hboard : (c.ledger.settle slot (f p.node) clock).2.board.Shows
      (R.enter slot p.node (f p.node)) :=
    ⟨hclosed.trans hclear.opened, hslots ▸ hclear.slots⟩
  unfold Cycle.settleSlot
  rw [hp]
  refine hframe _ _ ?_ hboard
  cases ho : f p.node with
  | ok q =>
    rw [ho] at hbatch
    rw [hbatch.1, hbatch.2]
    exact hacc.enter_ok hslot (hf q ho)
  | error cause =>
    rw [ho] at hbatch
    rw [hbatch.1, hbatch.2]
    exact hacc.enter_error hslot cause

/-- The task of a slot leaves a register that tallies, whether or not its node was awaited. -/
theorem Tally.task (h : Tally nodes c R) (slot : Nat) (f : String → NodeOutcome)
    (hf : ∀ name q, f name = .ok q → q.node.name = name) (hs : s.slot? = some slot)
    (ho : ∀ p, c.ledger.board.pending? slot = some p → c.outcomeAt? s slot = some (f p.node))
    (clock : WallClock) :
    ∃ R', Tally nodes (c.settleSlot slot f clock) R' ∧ Follows c s R R' := by
  cases hp : c.ledger.board.pending? slot with
  | none =>
    refine ⟨R, ?_, follows_refl (fun k => ?_) R⟩
    · unfold Cycle.settleSlot
      rw [hp]
      exact h
    · by_cases hk : k = slot
      · exact outcomeAt?_of_pending_none (hk ▸ hp)
      · exact outcomeAt?_of_slot? (by rw [hs]; exact fun he => hk (Option.some.inj he).symm)
  | some p =>
    obtain ⟨-, -, -, hshow, -⟩ := h.opened (Board.opened_of_pending hp)
    have hslot := hshow.getElem?_of_pending hp
    refine ⟨_, h.settleSlot hp (hf p.node) clock, fun k => .inl ?_⟩
    rw [Register.outcome?_enter hslot]
    by_cases hk : k = slot
    · subst hk
      rw [if_pos rfl, ho p hp, Register.outcome?, hslot]
      rfl
    · rw [if_neg hk, outcomeAt?_of_slot? (by rw [hs]; exact fun he => hk (Option.some.inj he).symm),
        Option.or_none]

/-- A started node gets an entry of its own if it has a name, and none otherwise. -/
theorem Tally.start (h : Tally nodes c R) {index : Nat} {n : Node} {rest : List Node}
    (hstage : c.stage = .starting index (n :: rest)) {now : WallTime}
    (hs : c.step? (.start now) = some c') : Tally nodes c' (R ++ (namedNodes [n]).map Entry.await) := by
  obtain ⟨index', n', rest', hstage', rfl⟩ := step?_start.mp hs
  cases hstage.symm.trans hstage'
  simp only [Tally, hstage] at h ⊢
  obtain ⟨started, rfl, rfl, hacc, hshow⟩ := h
  refine ⟨started ++ [n], by simp, by simp, ?_⟩
  cases hn : n.name.isEmpty with
  | true =>
    have hnone : namedNodes [n] = [] := List.filter_cons_of_neg (by simp [hn])
    rw [hnone, List.map_nil, List.append_nil]
    exact ⟨hacc.append_nameless hn, hshow⟩
  | false =>
    have hone : namedNodes [n] = [n] := List.filter_cons_of_pos (by simp [hn])
    rw [hone]
    exact ⟨hacc.append_named hn, hshow.track n.name now⟩

/-- An awaited entry says nothing yet. -/
theorem outcome?_append_await (R : Register) (ns : List Node) (slot : Nat) :
    Register.outcome? (R ++ ns.map Entry.await) slot = R.outcome? slot := by
  unfold Register.outcome?
  rw [List.getElem?_append]
  split
  · rfl
  · rename_i hslot
    rw [List.getElem?_eq_none (Nat.le_of_not_lt hslot), List.getElem?_map]
    cases ns[slot - R.length]? <;> rfl

/-- Closing the board hands out the batch and exactly the awaited nodes. -/
theorem Tally.close (h : Tally nodes c R) (hs : c.step? .close = some c') : Tally nodes c' R := by
  obtain ⟨hstage, rfl⟩ := step?_close.mp hs
  rcases hstage with hstage | hstage <;>
  · simp only [Tally, hstage] at h ⊢
    exact ⟨h.1, h.2.awaited, rfl⟩

/-- A node that is left out gets the entry that it came too late. -/
theorem Tally.enter_leaveOut (h : Tally nodes c R) {later : WallTime}
    (hs : c.step? (.leaveOut later) = some c') :
    ∃ slot name, R[slot]? = some ⟨name, none⟩ ∧
      Tally nodes c' (R.enter slot name (.error (Ledger.lateCause c.parentCanceled))) := by
  obtain ⟨batch, p, left, hstage, rfl⟩ := step?_leaveOut.mp hs
  simp only [Tally, hstage] at h ⊢
  obtain ⟨hacc, hawaited, hclosed⟩ := h
  obtain ⟨slot, hslot, hrest⟩ := Register.exists_first_awaited hawaited
  exact ⟨slot, p.node, hslot, hacc.enter_error hslot _, hrest _, hclosed⟩

theorem Tally.leaveOut (h : Tally nodes c R) {later : WallTime}
    (hs : c.step? (.leaveOut later) = some c') :
    ∃ R', Tally nodes c' R' ∧ Follows c (.leaveOut later) R R' := by
  have hother (k : Nat) : c.outcomeAt? (.leaveOut later) k = none := outcomeAt?_of_slot? nofun
  have hclosed : c.ledger.board.closed = true := by
    obtain ⟨batch, p, left, hstage, -⟩ := step?_leaveOut.mp hs
    simp only [Tally, hstage] at h
    exact h.2.2
  obtain ⟨slot, name, hslot, htally⟩ := h.enter_leaveOut hs
  refine ⟨_, htally, fun k => ?_⟩
  rw [Register.outcome?_enter hslot]
  by_cases hk : k = slot
  · subst hk
    rw [if_pos rfl]
    exact .inr ⟨by simp [Register.outcome?, hslot], hclosed, rfl⟩
  · rw [if_neg hk, hother, Option.or_none]
    exact .inl rfl

/-- A quiet step leaves the register as it is. -/
theorem Tally.quiet (h : Tally nodes c R) (hq : s.isQuiet = true) (hs : c.step? s = some c') :
    Tally nodes c' R := by
  cases s with
  | settle slot attempt took clock => cases hq
  | giveUp slot reason clock => cases hq
  | start now => cases hq
  | leaveOut later => cases hq
  | close => exact h.close hs
  | cancelParent =>
    cases hs
    exact h
  | expire =>
    cases hs
    exact h
  | started =>
    obtain ⟨index, hstage, rfl⟩ := step?_started.mp hs
    simp only [Tally, hstage, List.append_nil] at h ⊢
    obtain ⟨started, rfl, -, hacc, hshow⟩ := h
    exact ⟨hacc, hshow⟩
  | drained =>
    obtain ⟨hstage, -, rfl⟩ := step?_drained.mp hs
    simp only [Tally, hstage] at h
    exact h
  | cutOff =>
    obtain ⟨hstage, -, rfl⟩ := step?_cutOff.mp hs
    simp only [Tally, hstage] at h
    exact h
  | cancelSelf =>
    obtain ⟨allSettled, hstage, rfl⟩ := step?_cancelSelf.mp hs
    simp only [Tally, hstage] at h
    exact h
  | abort =>
    obtain ⟨hstage, rfl⟩ := step?_abort.mp hs
    simp only [Tally, hstage] at h
    exact h
  | count =>
    obtain ⟨batch, hstage, rfl⟩ := step?_count.mp hs
    simp only [Tally, hstage] at h
    exact h
  | collect =>
    obtain ⟨batch, hstage, rfl⟩ := step?_collect.mp hs
    simp only [Tally, hstage] at h
    simp only [Tally]
    rw [FailureCollector.take_causes]
    exact h

/-- Every step leaves a register that tallies. -/
theorem Tally.step (h : Tally nodes c R) (hs : c.step? s = some c') :
    ∃ R', Tally nodes c' R' ∧ Follows c s R R' := by
  have keep (hslot : s.slot? = none) (hq : s.isQuiet = true) :
      ∃ R', Tally nodes c' R' ∧ Follows c s R R' :=
    ⟨R, h.quiet hq hs, follows_refl (fun k => outcomeAt?_of_slot? (by simp [hslot])) R⟩
  cases s with
  | settle slot attempt took clock =>
    cases hs
    refine h.task slot _ (fun name q hq => Attempt.name_of_outcome hq) rfl ?_ clock
    intro p hp
    simp [outcomeAt?, hp]
  | giveUp slot reason clock =>
    obtain ⟨-, rfl⟩ := step?_giveUp.mp hs
    refine h.task slot _ (fun name q hq => ?_) rfl ?_ clock
    · cases hq
    · intro p hp
      simp [outcomeAt?, hp]
  | start now =>
    obtain ⟨index, n, rest, hstage, -⟩ := step?_start.mp hs
    refine ⟨_, h.start hstage hs, fun k => .inl ?_⟩
    have hother : c.outcomeAt? (.start now) k = none := outcomeAt?_of_slot? nofun
    rw [outcome?_append_await, hother, Option.or_none]
  | leaveOut later => exact h.leaveOut hs
  | _ => exact keep rfl rfl

/-- Once the board is closed no task brings a node to an end. -/
theorem verdict?_of_closed (h : c.ledger.board.closed = true) (slot : Nat) (steps : List Step) :
    c.verdict? slot steps = none := by
  induction steps generalizing c with
  | nil => rfl
  | cons s rest ih =>
    have hnext : (c.step s).ledger.board.closed = true := by
      cases hs : c.step? s with
      | none => rwa [step, hs]
      | some next =>
        rw [step, hs]
        exact step?_closed hs h
    have hnone := outcomeAt?_of_pending_none (s := s) (Board.pending?_of_closed h slot)
    rw [verdict?, hnone, ih hnext]
    rfl

/-- What a run makes a node come to is made by one step of the run, which finds the node awaited. -/
theorem verdict?_eq_some {steps : List Step} {o : NodeOutcome} (hs : c.steps? steps = some c')
    (ho : c.verdict? slot steps = some o) :
    ∃ before s after mid, steps = before ++ s :: after ∧ c.steps? before = some mid ∧
      mid.outcomeAt? s slot = some o := by
  induction steps generalizing c with
  | nil => cases ho
  | cons s rest ih =>
    obtain ⟨next, hnext, hrest⟩ := steps?_cons.mp hs
    rw [verdict?, step, hnext, Option.or_eq_some_iff] at ho
    rcases ho with ho | ⟨-, ho⟩
    · exact ⟨[], s, rest, c, rfl, rfl, ho⟩
    · obtain ⟨before, s', after, mid, rfl, hbefore, hmid⟩ := ih hrest ho
      exact ⟨s :: before, s', after, mid, rfl, steps?_cons.mpr ⟨next, hnext, hbefore⟩, hmid⟩

/-- Every run leaves a register that tallies, in which an awaited node has come to what the tasks'
steps make it come to, or else, if it has come to anything, is left out. -/
theorem Tally.run {steps : List Step} (h : Tally nodes c R) (hs : c.steps? steps = some c') :
    ∃ R', Tally nodes c' R' ∧ ∀ slot,
      R'.outcome? slot = (R.outcome? slot).or (c.verdict? slot steps) ∨
      R.outcome? slot = none ∧ c.verdict? slot steps = none ∧ ∃ late,
        R'.outcome? slot = some (.error (Ledger.lateCause late)) ∧
        (late = true → c.parentCanceled = true ∨ .cancelParent ∈ steps) := by
  induction steps generalizing c R with
  | nil =>
    obtain rfl := Option.some.inj hs
    exact ⟨R, h, fun slot => .inl (by rw [verdict?, Option.or_none])⟩
  | cons s rest ih =>
    obtain ⟨next, hnext, hrest⟩ := steps?_cons.mp hs
    obtain ⟨R₁, h₁, hfollows⟩ := h.step hnext
    obtain ⟨R', h', hrun⟩ := ih h₁ hrest
    refine ⟨R', h', fun slot => ?_⟩
    have hverdict : c.verdict? slot (s :: rest) =
        (c.outcomeAt? s slot).or (next.verdict? slot rest) := by
      rw [verdict?, Cycle.step, hnext, Option.getD_some]
    rw [hverdict]
    rcases hfollows slot with hsame | ⟨hnone, hclosed, hlate⟩
    · rcases hrun slot with hfinal | ⟨hnone, hquiet, late, hfinal, hwhy⟩
      · left
        rw [hfinal, hsame, Option.or_assoc]
      · rw [hsame, Option.or_eq_none_iff] at hnone
        refine .inr ⟨hnone.1, by rw [hnone.2, hquiet]; rfl, late, hfinal, fun hl => ?_⟩
        rcases hwhy hl with hp | hmem
        · rcases step?_parentCanceled hnext hp with hp | rfl
          · exact .inl hp
          · exact .inr List.mem_cons_self
        · exact .inr (List.mem_cons_of_mem _ hmem)
    · have hnow := outcomeAt?_of_pending_none (s := s) (Board.pending?_of_closed hclosed slot)
      have hafter := verdict?_of_closed (step?_closed hnext hclosed) slot rest
      refine .inr ⟨hnone, by rw [hnow, hafter]; rfl, c.parentCanceled, ?_, .inl⟩
      rcases hrun slot with hfinal | ⟨hopen, -⟩
      · rw [hfinal, hlate]
        rfl
      · rw [hlate] at hopen
        cases hopen

end Cycle

end NodeScrape
