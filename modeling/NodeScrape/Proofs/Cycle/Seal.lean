import NodeScrape.Proofs.Cycle.Replay

/-!
# When a cycle returns

A cycle returns when its last task has settled or the grace period after the end of its scope is
over, and leaves out exactly the nodes whose tasks take longer. Where both have come it does not
matter which of them the cycle finds first: no node is awaited any more, so nothing is left that
could tell the two apart.
-/

namespace NodeScrape

namespace Cycle

/-- What a cycle comes to that stops waiting with a ledger that awaits no node, whatever its tasks
still do. -/
def EndsWith (l : Ledger) (c : Cycle) : Prop :=
  match c.stage with
  | .stopped _ | .canceled _ | .aborted => c.ledger = l
  | .closed batch left => batch = l.board.batch ∧ left = [] ∧
      c.ledger = { l with board := l.board.close }
  | .counted batch => batch = l.board.batch ∧ c.ledger = { l with
      board := l.board.close
      instruments := l.instruments.recordScrape l.failures.isEmpty }
  | .returned batch failure => batch = l.board.batch ∧ failure = l.failures.take.1 ∧
      c.ledger = { l with
        board := l.board.close
        failures := l.failures.take.2
        instruments := l.instruments.recordScrape l.failures.isEmpty }
  | _ => False

variable {l : Ledger} {c c' c₁ c₂ : Cycle} {s : Step}

/-- No task finds a node to settle. -/
theorem EndsWith.pending?_eq_none (h : EndsWith l c) (hl : l.board.isDrained = true) (slot : Nat) :
    c.ledger.board.pending? slot = none := by
  have hopen (he : c.ledger = l) : c.ledger.board.pending? slot = none :=
    he ▸ Board.pending?_of_isDrained hl slot
  have hclosed (he : c.ledger.board = l.board.close) : c.ledger.board.pending? slot = none :=
    Board.pending?_of_closed (by rw [he]; rfl) slot
  unfold EndsWith at h
  split at h
  · exact hopen h
  · exact hopen h
  · exact hopen h
  · exact hclosed (by rw [h.2.2])
  · exact hclosed (by rw [h.2])
  · exact hclosed (by rw [h.2.2])
  · exact h.elim

/-- Whatever step is taken, the cycle comes to the same. -/
theorem EndsWith.step (h : EndsWith l c) (hl : l.board.isDrained = true)
    (hs : c.step? s = some c') : EndsWith l c' := by
  cases s with
  | settle slot attempt took clock =>
    rwa [step?_of_pending_none (h.pending?_eq_none hl slot) rfl hs]
  | giveUp slot reason clock =>
    rwa [step?_of_pending_none (h.pending?_eq_none hl slot) rfl hs]
  | cancelParent =>
    cases hs
    exact h
  | expire =>
    cases hs
    exact h
  | start now =>
    obtain ⟨index, n, rest, hstage, -⟩ := step?_start.mp hs
    simp only [EndsWith, hstage] at h
  | started =>
    obtain ⟨index, hstage, -⟩ := step?_started.mp hs
    simp only [EndsWith, hstage] at h
  | drained =>
    obtain ⟨hstage, -, -⟩ := step?_drained.mp hs
    simp only [EndsWith, hstage] at h
  | cutOff =>
    obtain ⟨hstage, -, -⟩ := step?_cutOff.mp hs
    simp only [EndsWith, hstage] at h
  | cancelSelf =>
    obtain ⟨allSettled, hstage, rfl⟩ := step?_cancelSelf.mp hs
    simp only [EndsWith, hstage] at h ⊢
    exact h
  | abort =>
    obtain ⟨hstage, rfl⟩ := step?_abort.mp hs
    simp only [EndsWith, hstage] at h ⊢
    exact h
  | close =>
    obtain ⟨hstage, rfl⟩ := step?_close.mp hs
    have hnone : l.board.unsettled = [] :=
      List.filterMap_eq_nil_iff.mpr fun o ho => Option.isNone_iff_eq_none.mp
        (List.all_eq_true.mp hl o ho)
    rcases hstage with hstage | hstage <;>
    · simp only [EndsWith, hstage] at h ⊢
      rw [h]
      exact ⟨rfl, hnone, rfl⟩
  | leaveOut later =>
    obtain ⟨batch, p, left, hstage, -⟩ := step?_leaveOut.mp hs
    simp only [EndsWith, hstage] at h
    cases h.2.1
  | count =>
    obtain ⟨batch, hstage, rfl⟩ := step?_count.mp hs
    simp only [EndsWith, hstage] at h ⊢
    rw [h.2.2]
    exact ⟨h.1, rfl⟩
  | collect =>
    obtain ⟨batch, hstage, rfl⟩ := step?_collect.mp hs
    simp only [EndsWith, hstage] at h ⊢
    rw [h.2]
    exact ⟨h.1, rfl, rfl⟩

/-- Where all tasks have settled, a cycle that finds so and one that finds its time up hand out the
same and leave the same behind, whatever steps follow. -/
theorem result_of_drained_or_cutOff {steps₁ steps₂ : List Step}
    {r₁ r₂ : Batch × Option AggregateFailure} (h₁ : c.steps? (.drained :: steps₁) = some c₁)
    (h₂ : c.steps? (.cutOff :: steps₂) = some c₂) (hr₁ : c₁.result? = some r₁)
    (hr₂ : c₂.result? = some r₂) : r₁ = r₂ ∧ c₁.ledger = c₂.ledger := by
  obtain ⟨d₁, hdrained, hrest₁⟩ := steps?_cons.mp h₁
  obtain ⟨d₂, hcut, hrest₂⟩ := steps?_cons.mp h₂
  obtain ⟨-, hl, rfl⟩ := step?_drained.mp hdrained
  obtain ⟨-, -, rfl⟩ := step?_cutOff.mp hcut
  have hkeep {d d' : Cycle} {steps : List Step} (hd : EndsWith c.ledger d)
      (hs : d.steps? steps = some d') : EndsWith c.ledger d' :=
    steps?_preserves (P := EndsWith c.ledger) (fun h hs => h.step hl hs) hd hs
  have hend₁ : EndsWith c.ledger c₁ := hkeep (by rfl) hrest₁
  have hend₂ : EndsWith c.ledger c₂ := hkeep (by rfl) hrest₂
  simp only [EndsWith, stage_of_result? hr₁] at hend₁
  simp only [EndsWith, stage_of_result? hr₂] at hend₂
  exact ⟨Prod.ext (hend₁.1.trans hend₂.1.symm) (hend₁.2.1.trans hend₂.2.1.symm),
    hend₁.2.2.trans hend₂.2.2.symm⟩

end Cycle

namespace Scraper

/-- The tick at which a cycle over listed nodes closes its board: when the last task has settled,
but not after the grace period that follows the end of its scope. -/
def sealTick (s : Scraper) (nodes : List Node) (parent : Ending) (begins : Nat) : Nat :=
  begins + (s.span parent begins).seals
    ((namedNodes nodes).map fun n => (s.span parent begins).settles (s.client n))

/-- What a node has come to when a cycle over listed nodes closes its board: what its task made it
come to, or that it is left out. -/
def sealsTo (s : Scraper) (nodes : List Node) (parent : Ending) (begins : Nat) (n : Node) :
    NodeOutcome :=
  if Ending.reached (((s.span parent begins).settles (s.client n)).map (begins + ·))
      (s.sealTick nodes parent begins) then
    (s.span parent begins).settlesTo (s.client n)
      ((s.client n).result.outcome n.name (WallTime.since s.clock.later s.clock.now))
  else .error (if Ending.reached parent.canceled (s.sealTick nodes parent begins) then .canceled
    else .deadlineExceeded)

variable {s : Scraper} {nodes : List Node}

/-- A scrape of listed nodes returns, whatever its clients do. -/
theorem scrape_of_listing (hlist : s.listing = .ok nodes) (parent : Ending) (begins : Nat)
    (instruments : Instruments) :
    ∃ c batch failure, (s.plan nodes parent begins).run instruments =
        some (s.sealTick nodes parent begins, c) ∧
      c.result? = some (batch, failure) ∧
      s.scrape parent begins instruments = ⟨batch, failure.map .nodes,
        s.sealTick nodes parent begins, (namedNodes nodes).length, c.ledger⟩ ∧
      Accounts nodes
        ((namedNodes nodes).map fun n => ⟨n.name, some (s.sealsTo nodes parent begins n)⟩) batch
        (failure.elim [] AggregateFailure.causes) := by
  obtain ⟨deadline, hd, hspan⟩ := s.exists_span_plan nodes parent begins
  obtain ⟨c, batch, failure, hrun, hresult, hacc⟩ := CyclePlan.run_seals hd instruments
  have htick : (s.plan nodes parent begins).sealTick deadline = s.sealTick nodes parent begins := by
    rw [CyclePlan.sealTick, hspan]
    rfl
  have houtcome (n : Node) :
      (s.plan nodes parent begins).sealsTo deadline n = s.sealsTo nodes parent begins n := by
    rw [CyclePlan.sealsTo, CyclePlan.settleTick?, CyclePlan.settlesTo, htick, hspan]
    rfl
  rw [htick] at hrun
  refine ⟨c, batch, failure, hrun, hresult, scrape_of_run hlist hrun hresult, ?_⟩
  simp only [houtcome] at hacc
  exact hacc

/-- A scrape notes one latency for every occurrence of a node that it attempts. -/
theorem observations_scrape (s : Scraper) (parent : Ending) (begins : Nat)
    (instruments : Instruments) (name : String) :
    (s.scrape parent begins instruments).instruments.observations name =
      instruments.observations name + s.attempted.count name := by
  obtain ⟨events, call, hevents, hresult, hnames, -⟩ :=
    s.scrape_events parent begins ⟨instruments, []⟩
  have hkept : (Calls.mk instruments []).Kept := fun call hcall => absurd hcall List.not_mem_nil
  obtain ⟨hinstruments, hreset, -, houtstanding, -⟩ := Calls.events?_account hkept hevents
  have hnone : call.outstanding = [] :=
    (Call.Kept.of_result? (Calls.events?_kept hkept hevents call (by simp)) hresult).1
  simp only [List.flatMap_nil, List.nil_append, List.flatMap_singleton, hnone, List.append_nil,
    hnames] at houtstanding
  rw [houtstanding.count_eq, ← Instruments.observations_foldl hreset, ← hinstruments]

/-- A scrape always returns: at once if its nodes cannot be listed, and else when the last task has
settled, but not after the grace period that follows the end of its scope, however long its clients
hold their threads. Every task that has settled by then keeps what it came to. Every other named
node is left out, as canceled if the scope around the cycle is and as out of time if not. Every
named node has one latency noted. Where all tasks have settled and the grace period is over, either
may be found first, and whatever follows the same is handed out and left behind. -/
theorem scrape_seals (s : Scraper) (parent : Ending) (begins : Nat) (instruments : Instruments) :
    (∀ chain, s.listing = .error chain → (s.scrape parent begins instruments).finished = begins) ∧
    (∀ nodes, s.listing = .ok nodes →
      (∃ c batch failure, (s.plan nodes parent begins).run instruments =
          some (s.sealTick nodes parent begins, c) ∧
        c.result? = some (batch, failure) ∧
        s.scrape parent begins instruments = ⟨batch, failure.map .nodes,
          s.sealTick nodes parent begins, (namedNodes nodes).length, c.ledger⟩ ∧
        Accounts nodes
          ((namedNodes nodes).map fun n => ⟨n.name, some (s.sealsTo nodes parent begins n)⟩) batch
          (failure.elim [] AggregateFailure.causes)) ∧
      s.sealTick nodes parent begins ≤
        begins + (s.span parent begins).length + CyclePlan.grace ∧
      ∀ name, (s.scrape parent begins instruments).instruments.observations name =
        instruments.observations name + ((namedNodes nodes).map Node.name).count name) ∧
    ∀ (c c₁ c₂ : Cycle) (steps₁ steps₂ : List Cycle.Step)
      (r₁ r₂ : Batch × Option AggregateFailure), c.steps? (.drained :: steps₁) = some c₁ →
      c.steps? (.cutOff :: steps₂) = some c₂ → c₁.result? = some r₁ → c₂.result? = some r₂ →
      r₁ = r₂ ∧ c₁.ledger = c₂.ledger := by
  refine ⟨fun chain hlist => ?_, fun nodes hlist => ?_,
    fun _ _ _ _ _ _ _ => Cycle.result_of_drained_or_cutOff⟩
  · rw [scrape, hlist]
  · refine ⟨scrape_of_listing hlist parent begins instruments, ?_, fun name => ?_⟩
    · have hle := ((s.span parent begins).seals_le_iff
        ((namedNodes nodes).map fun n => (s.span parent begins).settles (s.client n)) _).mpr
        (.inr (Nat.le_refl _))
      unfold sealTick
      omega
    · rw [observations_scrape, attempted, hlist]

/-- One client holds its thread for ever and another beyond the end of the scope but not of the grace
period, during which the scope around the cycle is canceled. -/
theorem scrape_seals_held :
    let s := Scraper.mk (.ok [⟨"a", [], true, none⟩, ⟨"b", [], true, none⟩])
      (fun n => ⟨if n.name = "a" then none else some 12, false, true, .failed (.request "reset")⟩)
      10 ⟨0, 0⟩
    (s.scrape ⟨some 25, none⟩ 0 {}).finished = 30 ∧
    (∃ failure : Option AggregateFailure,
      (s.scrape ⟨some 25, none⟩ 0 {}).failure = failure.map .nodes ∧
      (failure.elim [] AggregateFailure.causes).Perm
        [⟨"a", .canceled⟩, ⟨"b", .request "reset"⟩]) ∧
    (s.scrape ⟨some 25, none⟩ 0 {}).instruments.observations "a" = 1 := by
  intro s
  obtain ⟨⟨c, batch, failure, -, -, hreport, hacc⟩, -, hobservations⟩ :=
    (scrape_seals s ⟨some 25, none⟩ 0 {}).2.1 _ rfl
  exact ⟨by rw [hreport]; rfl, ⟨failure, by rw [hreport], hacc.failures⟩, hobservations "a"⟩

end Scraper

end NodeScrape
