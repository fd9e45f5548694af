import NodeScrape.Proofs.Cycle.Account

/-!
# Causes of nodes that were cut off

A node that is left out when the board is closed is called off only if the scope around the cycle
is. Its own task may say otherwise: between the cycle's canceling of its scope and its closing of
the board both reasons hold, and a task that is asked then may take either.
-/

namespace NodeScrape

namespace Cycle

variable {nodes : List Node} {instruments : Instruments} {steps : List Step} {c c' : Cycle}
  {batch : Batch} {failure : Option AggregateFailure} {slot : Nat} {s : Step}

/-- A cycle has canceled its own scope but not yet closed its board. -/
def WindingUp (c : Cycle) : Prop :=
  c.stage = .canceled true ∨ c.stage = .canceled false ∨ c.stage = .aborted

/-- What the stage of a cycle says of its scope and its board. -/
structure Staged (c : Cycle) : Prop where
  /-- A cycle that has canceled its scope closes its board next. -/
  canceled : c.selfCanceled = true → c.ledger.board.closed = true ∨ c.WindingUp
  /-- No node is awaited once all tasks were found to have settled. -/
  drained : c.stage = .stopped true ∨ c.stage = .canceled true → c.ledger.board.isDrained = true

theorem staged_begin (nodes : List Node) (instruments : Instruments) :
    Staged (begin nodes instruments) :=
  ⟨nofun, nofun⟩

/-- A task's step leaves the stage and what it says. -/
theorem Staged.settleSlot (h : Staged c) (slot : Nat) (f : String → NodeOutcome)
    (clock : WallClock) : Staged (c.settleSlot slot f clock) := by
  obtain ⟨l, hl, hclosed, -, hslots⟩ := settleSlot_frame c slot f clock
  rw [hl]
  refine ⟨fun hc => ?_, fun hst => ?_⟩
  · rw [hclosed]
    exact h.canceled hc
  · have hdrained := h.drained hst
    rcases hslots with hslots | hslots
    · rwa [Board.isDrained, hslots]
    · rw [Board.isDrained, hslots]
      exact Board.isDrained_clear hdrained slot

/-- Every step leaves the stage with what it says. -/
theorem Staged.step (h : Staged c) (hs : c.step? s = some c') : Staged c' := by
  -- Before it winds up, a cycle has canceled its scope only if its board is closed.
  have early (hno : ¬ c.WindingUp) (hself : c.selfCanceled = true) :
      c'.ledger.board.closed = true :=
    step?_closed hs ((h.canceled hself).resolve_right hno)
  cases s with
  | settle slot attempt took clock =>
    cases hs
    exact h.settleSlot slot _ clock
  | giveUp slot reason clock =>
    obtain ⟨-, rfl⟩ := step?_giveUp.mp hs
    exact h.settleSlot slot _ clock
  | cancelParent =>
    cases hs
    exact ⟨h.canceled, h.drained⟩
  | expire =>
    cases hs
    exact ⟨h.canceled, h.drained⟩
  | start now =>
    obtain ⟨index, node, rest, hstage, rfl⟩ := step?_start.mp hs
    exact ⟨fun hc => .inl (early (by simp [WindingUp, hstage]) hc), by simp⟩
  | started =>
    obtain ⟨index, hstage, rfl⟩ := step?_started.mp hs
    exact ⟨fun hc => .inl (early (by simp [WindingUp, hstage]) hc), by simp⟩
  | drained =>
    obtain ⟨hstage, hdrained, rfl⟩ := step?_drained.mp hs
    exact ⟨fun hc => .inl (early (by simp [WindingUp, hstage]) hc), fun _ => hdrained⟩
  | cutOff =>
    obtain ⟨hstage, -, rfl⟩ := step?_cutOff.mp hs
    exact ⟨fun hc => .inl (early (by simp [WindingUp, hstage]) hc), by simp⟩
  | cancelSelf =>
    obtain ⟨allSettled, hstage, rfl⟩ := step?_cancelSelf.mp hs
    refine ⟨fun _ => .inr ?_, fun hst => ?_⟩
    · cases allSettled <;> simp [WindingUp]
    · refine h.drained (.inl ?_)
      simpa [hstage] using hst
  | abort =>
    obtain ⟨hstage, rfl⟩ := step?_abort.mp hs
    exact ⟨fun _ => .inr (.inr (.inr rfl)), by simp⟩
  | close =>
    obtain ⟨-, rfl⟩ := step?_close.mp hs
    exact ⟨fun _ => .inl rfl, by simp⟩
  | leaveOut later =>
    obtain ⟨b, p, left, hstage, rfl⟩ := step?_leaveOut.mp hs
    exact ⟨fun hc => .inl (early (by simp [WindingUp, hstage]) hc), by simp⟩
  | count =>
    obtain ⟨b, hstage, rfl⟩ := step?_count.mp hs
    exact ⟨fun hc => .inl (early (by simp [WindingUp, hstage]) hc), by simp⟩
  | collect =>
    obtain ⟨b, hstage, rfl⟩ := step?_collect.mp hs
    exact ⟨fun hc => .inl (early (by simp [WindingUp, hstage]) hc), by simp⟩

/-- The scope around a cycle is canceled only by a step of its own. -/
theorem steps?_parentCanceled (h : c.steps? steps = some c') (hp : c'.parentCanceled = true) :
    c.parentCanceled = true ∨ .cancelParent ∈ steps := by
  induction steps generalizing c with
  | nil =>
    cases h
    exact .inl hp
  | cons s rest ih =>
    obtain ⟨next, hnext, hrest⟩ := steps?_cons.mp h
    rcases ih hrest with hp | hmem
    · rcases step?_parentCanceled hnext hp with hp | rfl
      · exact .inl hp
      · exact .inr List.mem_cons_self
    · exact .inr (List.mem_cons_of_mem _ hmem)

/-- The task of a slot gives up as called off after the cycle has canceled its own scope and before
it closes the board, while its node is still awaited. -/
def CalledOffWindingUp (nodes : List Node) (instruments : Instruments) (steps : List Step)
    (slot : Nat) : Prop :=
  ∃ before clock after mid, steps = before ++ .giveUp slot .canceled clock :: after ∧
    (begin nodes instruments).steps? before = some mid ∧
    (mid.ledger.board.pending? slot).isSome ∧
    (mid.stage = .canceled false ∨ mid.stage = .aborted)

/-- Where the scope around a cycle is not canceled, a task that gives up as called off does so while
the cycle winds up. -/
theorem calledOffWindingUp_of_giveUp {before after : List Step} {clock : WallClock} {mid : Cycle}
    {p : Pending} (hsteps : steps = before ++ .giveUp slot .canceled clock :: after)
    (hs : (begin nodes instruments).steps? steps = some c)
    (hbefore : (begin nodes instruments).steps? before = some mid)
    (hp : mid.ledger.board.pending? slot = some p) (hparent : .cancelParent ∉ steps) :
    CalledOffWindingUp nodes instruments steps slot := by
  refine ⟨before, clock, after, mid, hsteps, hbefore, by simp [hp], ?_⟩
  subst hsteps
  obtain ⟨next, hnext, -⟩ := steps?_split hs hbefore
  have hstaged : Staged mid :=
    steps?_preserves (fun h hs => h.step hs) (staged_begin nodes instruments) hbefore
  have hnot : mid.parentCanceled ≠ true := fun hp =>
    (steps?_parentCanceled hbefore hp).elim nofun fun hmem => hparent (by simp [hmem])
  have hself : mid.selfCanceled = true := by
    have hreason := (step?_giveUp.mp hnext).1
    simpa [reasons, hnot] using hreason
  rcases hstaged.canceled hself with hclosed | hdone | hwinding
  · rw [Board.pending?_of_closed hclosed] at hp
    cases hp
  · rw [Board.pending?_of_isDrained (hstaged.drained (.inr hdone))] at hp
    cases hp
  · exact hwinding

/-- A node that is called off while the cycle winds up is reported as canceled. -/
theorem mem_causes_of_calledOffWindingUp (hs : (begin nodes instruments).steps? steps = some c)
    (hr : c.result? = some (batch, failure))
    (hoff : CalledOffWindingUp nodes instruments steps slot) :
    ∃ f ∈ failure.elim [] AggregateFailure.causes, f.cause = .canceled := by
  obtain ⟨before, clock, after, mid, rfl, hbefore, hp, -⟩ := hoff
  obtain ⟨p, hp⟩ := Option.isSome_iff_exists.mp hp
  obtain ⟨next, hnext, hrest⟩ := steps?_split hs hbefore
  have hafter : mid.steps? (.giveUp slot .canceled clock :: after) = some c :=
    steps?_cons.mpr ⟨next, hnext, hrest⟩
  obtain ⟨R₀, htally, -⟩ := (tally_begin nodes instruments).run hbefore
  obtain ⟨-, -, -, hshow, -⟩ := htally.opened (Board.opened_of_pending hp)
  have hopen : R₀.outcome? slot = none := by
    rw [Register.outcome?, hshow.getElem?_of_pending hp]
    rfl
  have hverdict : mid.verdict? slot (.giveUp slot .canceled clock :: after) =
      some (.error .canceled) := by
    have hnow : mid.outcomeAt? (.giveUp slot .canceled clock) slot = some (.error .canceled) :=
      outcomeAt?_eq_some.mpr ⟨p, hp, .inr ⟨.canceled, clock, rfl, rfl⟩⟩
    rw [verdict?, hnow]
    rfl
  obtain ⟨R, htally, hrun⟩ := htally.run hafter
  obtain ⟨hacc, -⟩ := htally.returned hr
  rcases hrun slot with hend | ⟨-, hquiet, -⟩
  · rw [hopen, hverdict] at hend
    obtain ⟨e, he, ho⟩ := Option.bind_eq_some_iff.mp hend
    refine ⟨⟨e.name, .canceled⟩, hacc.failures.mem_iff.mpr (List.mem_append_right _ ?_), rfl⟩
    exact List.mem_filterMap.mpr
      ⟨e, List.mem_of_getElem? he, Entry.failure?_eq_some.mpr ⟨ho, rfl⟩⟩
  · rw [hverdict] at hquiet
    cases hquiet

/-- Where neither the scope around a cycle is canceled nor a client fails as canceled, a node is
reported as canceled exactly where its task gives up as called off while the cycle winds up. Every
other node that is cut off ran out of time and is counted so. -/
theorem canceled_iff_calledOffWindingUp
    (hs : (begin nodes instruments).steps? steps = some c)
    (hr : c.result? = some (batch, failure)) (hparent : .cancelParent ∉ steps)
    (hclient : ∀ slot took clock, .settle slot (.failed .canceled) took clock ∉ steps) :
    ((∃ f ∈ failure.elim [] AggregateFailure.causes, f.cause = .canceled) ↔
      ∃ slot, CalledOffWindingUp nodes instruments steps slot) ∧
    ∃ R, Accounts nodes R batch (failure.elim [] AggregateFailure.causes) ∧
      (failure.elim [] AggregateFailure.timedOut).Perm
        ((R.failures.filter fun f => f.cause.isTimeout).map NodeFailure.node) ∧
      ∀ slot e, R[slot]? = some e →
        (∃ attempt took clock, .settle slot attempt took clock ∈ steps ∧
          e.outcome = some (attempt.outcome e.name took)) ∨
        e.outcome = some (.error .deadlineExceeded) ∨
        e.outcome = some (.error .canceled) ∧ CalledOffWindingUp nodes instruments steps slot := by
  obtain ⟨R, hacc, -, hends⟩ := exists_accounts hs hr
  have hentry : ∀ slot e, R[slot]? = some e →
      (∃ attempt took clock, .settle slot attempt took clock ∈ steps ∧
        e.outcome = some (attempt.outcome e.name took)) ∨
      e.outcome = some (.error .deadlineExceeded) ∨
      e.outcome = some (.error .canceled) ∧ CalledOffWindingUp nodes instruments steps slot := by
    intro slot e he
    obtain ⟨o, ho, hverdict | ⟨-, late, rfl, hwhy⟩⟩ := hends slot e he
    · obtain ⟨before, s, after, mid, p, hsteps, hbefore, hp, hname, hstep⟩ :=
        step_of_verdict? hs hverdict
      rcases hstep with ⟨attempt, took, clock, rfl, rfl⟩ | ⟨reason, clock, rfl, rfl⟩
      · have hp : p.node = e.name := Option.some.inj (hname.symm.trans (hacc.name_of_entry he))
        exact .inl ⟨attempt, took, clock, by simp [hsteps], hp ▸ ho⟩
      · cases reason with
        | deadlineExceeded => exact .inr (.inl ho)
        | canceled =>
          exact .inr (.inr ⟨ho, calledOffWindingUp_of_giveUp hsteps hs hbefore hp hparent⟩)
    · cases late with
      | false => exact .inr (.inl ho)
      | true => exact absurd (hwhy rfl) hparent
  refine ⟨⟨?_, fun ⟨slot, hoff⟩ => mem_causes_of_calledOffWindingUp hs hr hoff⟩, R, hacc, ?_, hentry⟩
  · rintro ⟨f, hf, hcause⟩
    rcases List.mem_append.mp (hacc.failures.mem_iff.mp hf) with hf | hf
    · rw [cause_of_mem_namelessFailures hf] at hcause
      cases hcause
    · obtain ⟨e, he, hf⟩ := List.mem_filterMap.mp hf
      obtain ⟨slot, he⟩ := List.getElem?_of_mem he
      have ho : e.outcome = some (.error .canceled) := by
        rw [(Entry.failure?_eq_some.mp hf).1, hcause]
      rcases hentry slot e he with ⟨attempt, took, clock, hmem, hout⟩ | hout | ⟨-, hoff⟩
      · have hfailed := Attempt.eq_failed_of_canceled (Option.some.inj (hout.symm.trans ho))
        exact absurd (hfailed ▸ hmem) (hclient slot took clock)
      · cases hout.symm.trans ho
      · exact ⟨slot, hoff⟩
  · cases failure with
    | none => exact hacc.timedOut_perm
    | some aggregate => exact hacc.timedOut_perm

/-- A cycle was cut off and has canceled its own scope when the task of its one node is asked. -/
theorem canceled_iff_calledOffWindingUp_cut_off :
    ((begin [⟨"a", [], true, none⟩] {}).steps? [.start 0, .started, .expire, .cutOff, .cancelSelf,
        .giveUp 0 .canceled ⟨0, 0⟩, .abort, .close, .count, .collect]).bind result? =
      some ({}, some ⟨[⟨"a", .canceled⟩], by decide⟩) ∧
    ∃ slot, CalledOffWindingUp [⟨"a", [], true, none⟩] {} [.start 0, .started, .expire, .cutOff,
      .cancelSelf, .giveUp 0 .canceled ⟨0, 0⟩, .abort, .close, .count, .collect] slot := by
  refine (and_iff_left_of_imp fun hrun => ?_).mpr rfl
  obtain ⟨c, hs, hr⟩ := Option.bind_eq_some_iff.mp hrun
  have hiff := canceled_iff_calledOffWindingUp hs hr (by decide) (by simp)
  exact hiff.1.mp ⟨⟨"a", .canceled⟩, List.mem_singleton_self _, rfl⟩

/-- So a node whose time was up may be reported as canceled although nobody called it off. -/
theorem exists_timeout_reported_canceled :
    ¬ ∀ nodes instruments steps c batch failure,
      (begin nodes instruments).steps? steps = some c → c.result? = some (batch, failure) →
      .cancelParent ∉ steps →
      (∀ slot took clock, .settle slot (.failed .canceled) took clock ∉ steps) →
      ∀ f ∈ failure.elim [] AggregateFailure.causes, f.cause ≠ .canceled := by
  intro hall
  have hrun : ((begin [⟨"a", [], true, none⟩] {}).steps? [.start 0, .started, .expire, .cutOff,
      .cancelSelf, .giveUp 0 .canceled ⟨0, 0⟩, .abort, .close, .count, .collect]).bind result? =
      some ({}, some ⟨[⟨"a", .canceled⟩], by decide⟩) := rfl
  obtain ⟨c, hs, hr⟩ := Option.bind_eq_some_iff.mp hrun
  exact hall _ _ _ c _ _ hs hr (by decide) (by simp) _ (List.mem_singleton_self _) rfl

end Cycle

end NodeScrape
