import NodeScrape.Cycle.Scraper
import NodeScrape.Proofs.Cycle.Account
import NodeScrape.Proofs.Cycle.Clock
import NodeScrape.Proofs.Cycle.Reach

/-!
# Scraping on the virtual clock

A scraper whose nodes can be listed asks every named node once, and what it reports accounts for
what each of them comes to by itself. It returns when the last of them has come to its end.
-/

namespace NodeScrape

namespace CyclePlan

variable {p : CyclePlan} {deadline : Nat} {instruments : Instruments} {c : Cycle} {R : Register}

/-- Starting all listed nodes puts those with a name on the board, in their order. -/
theorem foldl_start (now : WallTime) (nodes rest : List Node) {index : Nat}
    (hstage : c.stage = .starting index rest) (h : Cycle.Tally nodes c R) :
    ∃ l index', rest.foldl (fun c _ => c.step (.start now)) c =
        { c with stage := .starting index' [], ledger := l } ∧
      Cycle.Tally nodes { c with stage := .starting index' [], ledger := l }
        (R ++ (namedNodes rest).map Entry.await) := by
  induction rest generalizing c R index with
  | nil =>
    have hc : { c with stage := .starting index [], ledger := c.ledger } = c := by rw [← hstage]
    refine ⟨c.ledger, index, hc.symm, ?_⟩
    rw [hc]
    simpa [namedNodes] using h
  | cons n rest ih =>
    obtain ⟨next, hnext⟩ : ∃ next, c.step? (.start now) = some next :=
      ⟨_, Cycle.step?_start.mpr ⟨index, n, rest, hstage, rfl⟩⟩
    have htally := h.start hstage hnext
    obtain ⟨_, _, _, hstage', rfl⟩ := Cycle.step?_start.mp hnext
    cases hstage.symm.trans hstage'
    obtain ⟨l, index', hfold, htally⟩ := ih rfl htally
    have happ : namedNodes (n :: rest) = namedNodes [n] ++ namedNodes rest :=
      List.filter_append [n] rest
    refine ⟨l, index', ?_, ?_⟩
    · rw [List.foldl_cons, Cycle.step_of_step? hnext, hfold]
    · rw [happ, List.map_append, ← List.append_assoc]
      exact htally

/-- A cycle that has started its tasks awaits every named node. -/
theorem launch_waiting (p : CyclePlan) (deadline : Nat) (instruments : Instruments) :
    p.Waiting deadline p.begins (p.launch instruments) := by
  obtain ⟨l, index, hfold, htally⟩ := foldl_start p.clock.now p.nodes p.nodes rfl
    (Cycle.tally_begin p.nodes instruments)
  have hstep : Cycle.step? { Cycle.begin p.nodes instruments with
      stage := .starting index [], ledger := l } .started =
      some { Cycle.begin p.nodes instruments with stage := .gathering, ledger := l } :=
    Cycle.step?_started.mpr ⟨index, rfl, rfl⟩
  have hlaunch : p.launch instruments =
      { Cycle.begin p.nodes instruments with stage := .gathering, ledger := l } := by
    rw [launch, hfold, Cycle.step_of_step? hstep]
  have hregister : p.registerAt deadline p.begins = (namedNodes p.nodes).map Entry.await := by
    refine List.map_congr_left fun n _ => ?_
    exact entryAt_of_unsettled (not_settledBefore_begins n)
  rw [hlaunch]
  refine ⟨rfl, ?_, rfl, nofun, nofun⟩
  rw [hregister]
  exact Cycle.Tally.quiet htally rfl hstep

/-- The nodes that are left get the entry that they came too late. -/
theorem foldl_leaveOut (later : WallTime) {nodes : List Node} {batch : Batch} {left : List Pending}
    (hstage : c.stage = .closed batch left) (h : Cycle.Tally nodes c R) :
    ∃ c', left.foldl (fun c _ => c.step (.leaveOut later)) c = c' ∧ c'.stage = .closed batch [] ∧
      Cycle.Tally nodes c' (R.map (Entry.leftOut (Ledger.lateCause c.parentCanceled))) := by
  induction left generalizing c R with
  | nil =>
    have hawaited : R.awaited = [] := by
      simp only [Cycle.Tally, hstage] at h
      exact h.2.1
    refine ⟨c, rfl, hstage, ?_⟩
    rwa [Register.map_leftOut_of_awaited_nil hawaited]
  | cons p left ih =>
    obtain ⟨next, hnext, hparent, hleft⟩ : ∃ next, c.step? (.leaveOut later) = some next ∧
        next.parentCanceled = c.parentCanceled ∧ next.stage = .closed batch left :=
      ⟨_, Cycle.step?_leaveOut.mpr ⟨batch, p, left, hstage, rfl⟩, rfl, rfl⟩
    obtain ⟨slot, name, hslot, htally⟩ := h.enter_leaveOut hnext
    obtain ⟨c', hfold, hdone, htally⟩ := ih hleft htally
    rw [hparent, Register.map_leftOut_enter hslot] at htally
    refine ⟨c', ?_, hdone, htally⟩
    rw [List.foldl_cons, Cycle.step_of_step? hnext, hfold]

/-- A cycle that has stopped waiting comes to its end with the register that it has, and the nodes
that it still awaits are left out. -/
theorem finish_tally {allSettled : Bool} (hstage : c.stage = .stopped allSettled)
    (h : Cycle.Tally p.nodes c R) :
    ∃ batch failure, (p.finish c).result? = some (batch, failure) ∧
      Accounts p.nodes (R.map (Entry.leftOut (Ledger.lateCause c.parentCanceled))) batch
        (failure.elim [] AggregateFailure.causes) := by
  obtain ⟨c₁, hcancel, hparent₁, hstage₁⟩ : ∃ c₁, c.step? .cancelSelf = some c₁ ∧
      c₁.parentCanceled = c.parentCanceled ∧ c₁.stage = .canceled allSettled :=
    ⟨_, Cycle.step?_cancelSelf.mpr ⟨allSettled, hstage, rfl⟩, rfl, rfl⟩
  have h₁ := h.quiet rfl hcancel
  obtain ⟨c₂, habort, hparent₂, hstage₂, h₂⟩ : ∃ c₂, c₁.step .abort = c₂ ∧
      c₂.parentCanceled = c₁.parentCanceled ∧ (c₂.stage = .canceled true ∨ c₂.stage = .aborted) ∧
      Cycle.Tally p.nodes c₂ R := by
    cases allSettled with
    | true => exact ⟨c₁, by simp [Cycle.step, Cycle.step?, hstage₁], rfl, .inl hstage₁, h₁⟩
    | false =>
      have hstep := Cycle.step?_abort.mpr ⟨hstage₁, rfl⟩
      exact ⟨_, Cycle.step_of_step? hstep, rfl, .inr rfl, h₁.quiet rfl hstep⟩
  obtain ⟨c₃, hclose, hparent₃, hstage₃⟩ : ∃ c₃, c₂.step? .close = some c₃ ∧
      c₃.parentCanceled = c₂.parentCanceled ∧
      c₃.stage = .closed c₂.ledger.board.batch c₂.ledger.board.unsettled :=
    ⟨_, Cycle.step?_close.mpr ⟨hstage₂, rfl⟩, rfl, rfl⟩
  obtain ⟨c₄, hleave, hstage₄, h₄⟩ := foldl_leaveOut p.clock.later hstage₃ (h₂.quiet rfl hclose)
  rw [hparent₃, hparent₂, hparent₁] at h₄
  obtain ⟨c₅, hcount, hstage₅⟩ : ∃ c₅, c₄.step? .count = some c₅ ∧
      c₅.stage = .counted c₂.ledger.board.batch :=
    ⟨_, Cycle.step?_count.mpr ⟨_, hstage₄, rfl⟩, rfl⟩
  obtain ⟨c₆, hcollect, hstage₆⟩ : ∃ c₆, c₅.step? .collect = some c₆ ∧
      c₆.stage = .returned c₂.ledger.board.batch c₅.ledger.failures.take.1 :=
    ⟨_, Cycle.step?_collect.mpr ⟨_, hstage₅, rfl⟩, rfl⟩
  have h₆ := (h₄.quiet rfl hcount).quiet rfl hcollect
  have hleft : p.leaveOut c₃ = c₄ := by
    rw [leaveOut, hstage₃]
    exact hleave
  have hfinish : p.finish c = c₆ := by
    rw [finish, Cycle.step_of_step? hcancel, habort, Cycle.step_of_step? hclose, hleft,
      Cycle.step_of_step? hcount, Cycle.step_of_step? hcollect]
  have hresult : c₆.result? = some (c₂.ledger.board.batch, c₅.ledger.failures.take.1) := by
    rw [Cycle.result?, hstage₆]
  exact ⟨_, _, hfinish ▸ hresult, (h₆.returned hresult).1⟩

/-- What a node has come to when the board is closed: what its task made it come to, or that it is
left out. -/
def sealsTo (p : CyclePlan) (deadline : Nat) (n : Node) : NodeOutcome :=
  if Ending.reached (p.settleTick? deadline n) (p.sealTick deadline) then p.settlesTo deadline n
  else .error (if Ending.reached p.ending.canceled (p.sealTick deadline) then .canceled
    else .deadlineExceeded)

/-- A cycle whose scope has a deadline closes its board and returns, whatever its clients do, and
accounts for what every named node has come to by then. -/
theorem run_seals (hd : p.ending.deadline = some deadline) (instruments : Instruments) :
    ∃ c batch failure, p.run instruments = some (p.sealTick deadline, c) ∧
      c.result? = some (batch, failure) ∧
      Accounts p.nodes (p.named.map fun n => ⟨n.name, some (p.sealsTo deadline n)⟩) batch
        (failure.elim [] AggregateFailure.causes) := by
  have hlate : ∀ t ∈ Race.wakeups p.begins p.moments, p.begins ≤ t ∧ p.begins ≤ t + 1 := by
    intro t ht
    have hstart := Race.start_le_of_mem_wakeups ht
    exact ⟨hstart, Nat.le_succ_of_le hstart⟩
  obtain ⟨c, hgather, hstopped⟩ := (p.launch_waiting deadline instruments).gather hd
    (Race.wakeups p.begins p.moments) (Race.pairwise_wakeups _ _) hlate
    (fun n hnamed k hk => .inr (settleTick?_mem_wakeups hd hnamed hk)) (sealTick_mem_wakeups hd)
  obtain ⟨allSettled, hstage⟩ := hstopped.stage
  obtain ⟨batch, failure, hresult, hacc⟩ := finish_tally hstage hstopped.tally
  have hregister : (p.registerAt deadline (p.sealTick deadline + 1)).map
      (Entry.leftOut (Ledger.lateCause c.parentCanceled)) =
      p.named.map fun n => ⟨n.name, some (p.sealsTo deadline n)⟩ := by
    rw [registerAt, List.map_map, hstopped.canceled]
    refine List.map_congr_left fun n _ => ?_
    rw [Function.comp_apply, sealsTo, ← settledBefore_succ]
    cases hsettled : p.settledBefore deadline (p.sealTick deadline + 1) n with
    | true => rw [entryAt_of_settled hsettled]; rfl
    | false => rw [entryAt_of_unsettled hsettled]; rfl
  refine ⟨p.finish c, batch, failure, ?_, hresult, hregister ▸ hacc⟩
  rw [run, hgather, Option.map_some]

/-- The tick of the last end, or that at which the cycle begins if there is none. -/
def lastTick (p : CyclePlan) (deadline : Nat) : Nat :=
  p.begins + (p.named.map fun n => (p.span deadline).ends (p.client n).delay).foldr max 0

end CyclePlan

namespace Scraper

/-- How long the scope of a cycle lasts that begins at a tick within a scope. -/
def span (s : Scraper) (parent : Ending) (begins : Nat) : Span :=
  ⟨parent.canceled.map (· - begins),
    parent.deadline.elim s.timeout fun d => min (d - begins) s.timeout⟩

/-- The deadline of a cycle's scope is the tighter of that around it and the cycle's own timeout. -/
theorem exists_span_plan (s : Scraper) (nodes : List Node) (parent : Ending) (begins : Nat) :
    ∃ deadline, (s.plan nodes parent begins).ending.deadline = some deadline ∧
      (s.plan nodes parent begins).span deadline = s.span parent begins := by
  refine ⟨_, rfl, ?_⟩
  unfold CyclePlan.span span plan ending
  cases hd : parent.deadline with
  | none => simp
  | some d =>
    simp only [Option.elim_some, Span.mk.injEq, true_and]
    omega

/-- What a scrape reports once its cycle has returned, with a task started for every named node. -/
theorem scrape_of_run {s : Scraper} {nodes : List Node} {parent : Ending} {begins t : Nat}
    {instruments : Instruments} {c : Cycle} {batch : Batch} {failure : Option AggregateFailure}
    (hlist : s.listing = .ok nodes)
    (hrun : (s.plan nodes parent begins).run instruments = some (t, c))
    (hresult : c.result? = some (batch, failure)) :
    s.scrape parent begins instruments =
      ⟨batch, failure.map .nodes, t, (namedNodes nodes).length, c.ledger⟩ := by
  have htracked : c.ledger.board.tracked = (namedNodes nodes).length :=
    (CyclePlan.reaches_run _ _ hrun).tracked hresult
  rw [scrape, hlist]
  simp only [hrun, Option.getD_some]
  rw [report, hresult, htracked]
  rfl

end Scraper

end NodeScrape
