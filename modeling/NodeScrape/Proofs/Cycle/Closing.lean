import NodeScrape.Proofs.Cycle.Step

/-!
# Tasks that come too late

A task whose node has left the board finds nothing to settle and leaves everything as it is. Once
the board is closed this is so for all tasks, so what a cycle returns and records no longer depends
on them.
-/

namespace NodeScrape

namespace Cycle

variable {nodes : List Node} {instruments : Instruments} {steps : List Step} {c c' : Cycle}
  {slot : Nat} {s : Step}

/-- The task of a slot was here before: one of the steps was its own, taken when its node was
already on the board. -/
def SettledBefore (c : Cycle) (slot : Nat) (steps : List Step) : Prop :=
  ∃ before s after mid, steps = before ++ s :: after ∧ c.steps? before = some mid ∧
    s.slot? = some slot ∧ slot < mid.ledger.board.slots.length

theorem steps?_closed (hc : c.ledger.board.closed = true) (h : c.steps? steps = some c') :
    c'.ledger.board.closed = true :=
  steps?_preserves (P := fun c => c.ledger.board.closed = true)
    (fun hc hs => step?_closed hs hc) hc h

/-- A run in which the board is closed leaves it closed. -/
theorem closed_of_close_mem (h : c.steps? steps = some c') (hclose : .close ∈ steps) :
    c'.ledger.board.closed = true := by
  obtain ⟨before, after, rfl⟩ := List.append_of_mem hclose
  obtain ⟨mid, -, hafter⟩ := steps?_append.mp h
  obtain ⟨next, hnext, hrest⟩ := steps?_cons.mp hafter
  obtain ⟨-, rfl⟩ := step?_close.mp hnext
  exact steps?_closed rfl hrest

/-- Whoever was here before has left nothing to settle. -/
theorem SettledBefore.pending?_eq_none (h : c.steps? steps = some c')
    (hb : SettledBefore c slot steps) : c'.ledger.board.pending? slot = none := by
  obtain ⟨before, s, after, mid, rfl, hbefore, hs, hlt⟩ := hb
  obtain ⟨next, hnext, hrest⟩ := steps?_split h hbefore
  obtain ⟨f, clock, rfl⟩ := step?_of_slot? hs hnext
  obtain ⟨l, hl, -, hgone, hslots⟩ := settleSlot_frame mid slot f clock
  have hlen : slot < l.board.slots.length := by
    rcases hslots with hslots | hslots
    · rwa [hslots]
    · rwa [hslots, List.length_set]
  rw [hl] at hrest
  have hstays := steps?_preserves (P := fun c =>
    slot < c.ledger.board.slots.length ∧ c.ledger.board.pending? slot = none)
    (fun hg hs => step?_gone hs hg) ⟨hlen, hgone⟩ hrest
  exact hstays.2

/-- Once the board is closed, the steps of the tasks can be left out of a run. -/
theorem steps?_ownSteps (hc : c.ledger.board.closed = true) (h : c.steps? steps = some c') :
    c.steps? (ownSteps steps) = some c' := by
  induction steps generalizing c with
  | nil => exact h
  | cons s rest ih =>
    obtain ⟨next, hnext, hrest⟩ := steps?_cons.mp h
    cases hs : s.slot? with
    | none =>
      have hkeep : ownSteps (s :: rest) = s :: ownSteps rest :=
        List.filter_cons_of_pos (by rw [hs]; rfl)
      rw [hkeep]
      exact steps?_cons.mpr ⟨next, hnext, ih (step?_closed hnext hc) hrest⟩
    | some slot =>
      have hdrop : ownSteps (s :: rest) = ownSteps rest :=
        List.filter_cons_of_neg (by rw [hs]; nofun)
      obtain rfl := step?_of_pending_none (Board.pending?_of_closed hc slot) hs hnext
      rw [hdrop]
      exact ih hc hrest

/-- A task that comes after the board was closed, a second time or for a slot that was never given
is told so and changes nothing: neither the batch nor the failures, neither the instruments nor
anything else. So from the closing of the board on, two runs end alike whenever the cycle itself
goes the same way in both, whatever the tasks do. -/
theorem late_tasks_change_nothing (h : (begin nodes instruments).steps? steps = some c) :
    (∀ slot, .close ∈ steps ∨ SettledBefore (begin nodes instruments) slot steps ∨
        c.ledger.board.slots.length ≤ slot →
      (∀ outcome clock, c.ledger.settle slot outcome clock = (false, c.ledger)) ∧
      ∀ s c', s.slot? = some slot → c.step? s = some c' → c' = c) ∧
    (.close ∈ steps → ∀ rest₁ rest₂ c₁ c₂, ownSteps rest₁ = ownSteps rest₂ →
      c.steps? rest₁ = some c₁ → c.steps? rest₂ = some c₂ → c₁ = c₂) := by
  constructor
  · intro slot hlate
    have hgone : c.ledger.board.pending? slot = none := by
      rcases hlate with hclose | hbefore | hnever
      · exact Board.pending?_of_closed (closed_of_close_mem h hclose) slot
      · exact hbefore.pending?_eq_none h
      · exact Board.pending?_of_length_le hnever
    exact ⟨Ledger.settle_of_pending_none hgone, fun s c' => step?_of_pending_none hgone⟩
  · intro hclose rest₁ rest₂ c₁ c₂ hown h₁ h₂
    have hc := closed_of_close_mem h hclose
    have h₁ := steps?_ownSteps hc h₁
    rw [hown, steps?_ownSteps hc h₂] at h₁
    exact (Option.some.inj h₁).symm

/-- A node is left out, and then its client has a result: the task is told that it is too late, and
the cycle returns what it would have returned without it. -/
theorem late_tasks_change_nothing_left_out :
    ∃ c, ((begin [⟨"a", [], true, none⟩] {}).steps?
        [.start 0, .started, .expire, .cutOff, .cancelSelf, .abort, .close] = some c ∧
        (c.steps? [.leaveOut 0, .settle 0 (.failed .canceled) 0 ⟨0, 0⟩, .count, .collect]).isSome ∧
        (c.steps? [.leaveOut 0, .count, .giveUp 0 .canceled ⟨0, 0⟩, .collect]).isSome) ∧
      c.ledger.settle 0 (.error .canceled) ⟨0, 0⟩ = (false, c.ledger) ∧
      c.steps? [.leaveOut 0, .settle 0 (.failed .canceled) 0 ⟨0, 0⟩, .count, .collect] =
        c.steps? [.leaveOut 0, .count, .giveUp 0 .canceled ⟨0, 0⟩, .collect] := by
  refine Exists.imp (fun c hrun => (and_iff_left_of_imp fun _ => ?_).mpr hrun) ⟨_, rfl, rfl, rfl⟩
  obtain ⟨hs, h₁, h₂⟩ := hrun
  obtain ⟨hrefused, hfixed⟩ := late_tasks_change_nothing hs
  obtain ⟨c₁, h₁⟩ := Option.isSome_iff_exists.mp h₁
  obtain ⟨c₂, h₂⟩ := Option.isSome_iff_exists.mp h₂
  refine ⟨(hrefused 0 (.inl (by decide))).1 _ _, ?_⟩
  have hsame : c₁ = c₂ := hfixed (by decide) _ _ c₁ c₂ (by decide) h₁ h₂
  rw [h₁, h₂, hsame]

end Cycle

end NodeScrape
