import NodeScrape.Cycle.Plan
import NodeScrape.Proofs.Cycle.Register
import NodeScrape.Proofs.Cycle.Step

/-!
# Where a cycle comes on the virtual clock

Whatever happens to a cycle on the virtual clock is a step of the cycle, so what holds of every
order of steps holds of it: by the time at which it returns it has started one task for every named
node.
-/

namespace NodeScrape

/-! ## Tasks that are started -/

namespace Board

@[simp] theorem tracked_track (b : Board) (node : String) (start : WallTime) :
    (b.track node start).tracked = b.tracked + 1 := by
  simp [tracked, track]

@[simp] theorem tracked_close (b : Board) : b.close.tracked = b.tracked := by
  simp [tracked, close]

end Board

namespace Cycle

/-- The named nodes for which a cycle has still to start a task. -/
def unstarted (c : Cycle) : List Node := match c.stage with
  | .starting _ rest => namedNodes rest
  | _ => []

/-- How many tasks a cycle has started or has still to start. -/
def tasks (c : Cycle) : Nat := c.ledger.board.tracked + c.unstarted.length

variable {c c' : Cycle} {s : Step}

theorem unstarted_of_isBare (h : c.stage.isBare = true) : c.unstarted = [] := by
  cases hstage : c.stage with
  | starting index rest =>
    cases rest with
    | nil =>
      rw [unstarted, hstage]
      rfl
    | cons n rest =>
      rw [hstage] at h
      cases h
  | _ => rw [unstarted, hstage]

/-- A task settles a slot that was given. -/
theorem tasks_settleSlot (c : Cycle) (slot : Nat) (f : String → NodeOutcome) (clock : WallClock) :
    (c.settleSlot slot f clock).tasks = c.tasks := by
  obtain ⟨l, hl, -, -, hslots⟩ := settleSlot_frame c slot f clock
  have htracked : l.board.tracked = c.ledger.board.tracked := by
    rcases hslots with hslots | hslots <;> simp [Board.tracked, hslots]
  rw [hl, tasks, tasks, htracked]
  rfl

/-- A task is started for the next listed node exactly if it has a name. -/
theorem tasks_start {now : WallTime} (h : c.step? (.start now) = some c') : c'.tasks = c.tasks := by
  obtain ⟨index, n, rest, hstage, rfl⟩ := step?_start.mp h
  cases hn : n.name.isEmpty with
  | true => simp [tasks, unstarted, hstage, namedNodes, hn, Ledger.fail]
  | false =>
    have hrest : namedNodes (n :: rest) = n :: namedNodes rest := by simp [namedNodes, hn]
    simp only [tasks, unstarted, hstage, hrest, Bool.false_eq_true, if_false, Ledger.track,
      Board.tracked_track, List.length_cons]
    omega

/-- No step changes how many tasks a cycle comes to start. -/
theorem tasks_step? (h : c.step? s = some c') : c'.tasks = c.tasks := by
  by_cases hk : s.keepsLedger = true
  · obtain ⟨hledger, hstage | ⟨hbare, hbare'⟩⟩ := step?_keepsLedger hk h
    · rw [tasks, tasks, unstarted, hledger, hstage]
      rfl
    · rw [tasks, tasks, hledger, unstarted_of_isBare hbare, unstarted_of_isBare hbare']
  cases s with
  | settle slot attempt took clock =>
    cases h
    exact c.tasks_settleSlot slot _ clock
  | giveUp slot reason clock =>
    obtain ⟨-, rfl⟩ := step?_giveUp.mp h
    exact c.tasks_settleSlot slot _ clock
  | start now => exact tasks_start h
  | close =>
    obtain ⟨hstage, rfl⟩ := step?_close.mp h
    rcases hstage with hstage | hstage <;> simp [tasks, unstarted, hstage]
  | leaveOut later =>
    obtain ⟨batch, p, left, hstage, rfl⟩ := step?_leaveOut.mp h
    simp [tasks, unstarted, hstage, Ledger.leaveOut, Ledger.observe, Ledger.fail]
  | count =>
    obtain ⟨batch, hstage, rfl⟩ := step?_count.mp h
    simp [tasks, unstarted, hstage]
  | collect =>
    obtain ⟨batch, hstage, rfl⟩ := step?_collect.mp h
    simp [tasks, unstarted, hstage]
  | _ => exact absurd rfl hk

end Cycle

/-! ## Where steps lead -/

namespace Cycle

/-- Steps lead from a cycle to another. -/
def Reaches (c c' : Cycle) : Prop := ∃ steps, c.steps? steps = some c'

variable {c c' c'' : Cycle}

theorem Reaches.refl (c : Cycle) : c.Reaches c := ⟨[], rfl⟩

theorem Reaches.trans (h : c.Reaches c') (h' : c'.Reaches c'') : c.Reaches c'' := by
  obtain ⟨before, hbefore⟩ := h
  obtain ⟨after, hafter⟩ := h'
  exact ⟨before ++ after, steps?_append.mpr ⟨c', hbefore, hafter⟩⟩

/-- A step leads on even if it cannot be taken, because the cycle then stays as it is. -/
theorem reaches_step (c : Cycle) (s : Step) : c.Reaches (c.step s) := by
  cases hs : c.step? s with
  | none =>
    rw [step, hs]
    exact .refl c
  | some c' =>
    rw [step_of_step? hs]
    exact ⟨[s], steps?_cons.mpr ⟨c', hs, rfl⟩⟩

theorem reaches_foldl {α : Type} (c : Cycle) (s : Step) (l : List α) :
    c.Reaches (l.foldl (fun c _ => c.step s) c) := by
  induction l generalizing c with
  | nil => exact .refl c
  | cons a l ih => exact (c.reaches_step s).trans (ih _)

/-- A cycle that has returned has started a task for every named node. -/
theorem Reaches.tracked {nodes : List Node} {instruments : Instruments}
    {result : Batch × Option AggregateFailure} (h : (begin nodes instruments).Reaches c)
    (hr : c.result? = some result) : c.ledger.board.tracked = (namedNodes nodes).length := by
  obtain ⟨steps, hsteps⟩ := h
  have hkept : c.tasks = (begin nodes instruments).tasks :=
    steps?_preserves (P := fun d => d.tasks = (begin nodes instruments).tasks)
      (fun hd hs => (tasks_step? hs).trans hd) rfl hsteps
  have hnone : c.unstarted = [] := by rw [unstarted, stage_of_result? hr]
  rw [tasks, hnone] at hkept
  simpa [tasks, unstarted, begin, Board.tracked] using hkept

end Cycle

namespace CyclePlan

variable (p : CyclePlan) (t : Nat) (c : Cycle)

theorem reaches_launch (instruments : Instruments) :
    (Cycle.begin p.nodes instruments).Reaches (p.launch instruments) :=
  (Cycle.reaches_foldl _ _ _).trans (Cycle.reaches_step _ _)

theorem reaches_lookAtScope : c.Reaches (p.lookAtScope t c) := by
  have hlook (c : Cycle) (b : Bool) (s : Cycle.Step) : c.Reaches (if b then c.step s else c) := by
    cases b with
    | true => exact Cycle.reaches_step c s
    | false => exact .refl c
  exact (hlook c _ .cancelParent).trans (hlook _ _ .expire)

theorem reaches_askTask (node : Node) (slot : Nat) : c.Reaches (p.askTask t c node slot) := by
  unfold askTask
  split
  · exact .refl c
  · exact Cycle.reaches_step c _
  · exact Cycle.reaches_step c _

theorem reaches_askTasks (slot : Nat) (nodes : List Node) :
    c.Reaches (p.askTasks t c slot nodes) := by
  induction nodes generalizing c slot with
  | nil => exact .refl c
  | cons node rest ih => exact (p.reaches_askTask t c node slot).trans (ih _ _)

theorem reaches_goOn : c.Reaches (p.goOn t c) := by
  unfold goOn
  split
  · exact Cycle.reaches_step c _
  · split
    · exact Cycle.reaches_step c _
    · exact .refl c

theorem reaches_wake : c.Reaches (p.wake t c) :=
  ((p.reaches_lookAtScope t c).trans (p.reaches_askTasks t _ _ _)).trans (p.reaches_goOn t _)

theorem reaches_gather {c c' : Cycle} {ticks : List Nat}
    (h : p.gather c ticks = some (t, c')) : c.Reaches c' := by
  induction ticks generalizing c with
  | nil => cases h
  | cons u rest ih =>
    rw [gather] at h
    split at h
    · cases h
      exact p.reaches_wake _ c
    · exact (p.reaches_wake u c).trans (ih h)

theorem reaches_finish : c.Reaches (p.finish c) := by
  have hleave (c : Cycle) : c.Reaches (p.leaveOut c) := by
    unfold leaveOut
    split
    · exact Cycle.reaches_foldl c _ _
    · exact .refl c
  unfold finish
  have hclose := ((Cycle.reaches_step c .cancelSelf).trans (Cycle.reaches_step _ .abort)).trans
    (Cycle.reaches_step _ .close)
  have hcount := (hclose.trans (hleave _)).trans (Cycle.reaches_step _ .count)
  exact hcount.trans (Cycle.reaches_step _ .collect)

/-- A cycle on the virtual clock comes to where it comes by steps from its beginning. -/
theorem reaches_run {instruments : Instruments} {c : Cycle}
    (h : p.run instruments = some (t, c)) : (Cycle.begin p.nodes instruments).Reaches c := by
  obtain ⟨⟨u, c'⟩, hgather, hfinish⟩ := Option.map_eq_some_iff.mp h
  cases hfinish
  exact ((p.reaches_launch instruments).trans (p.reaches_gather _ hgather)).trans
    (p.reaches_finish c')

end CyclePlan

end NodeScrape
