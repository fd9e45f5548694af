import NodeScrape.Proofs.Cycle.Return
import NodeScrape.Proofs.Cycle.Tally

/-!
# Accounts of a returned cycle

Whatever the order in which the tasks and the cycle take their steps, a cycle that has returned
accounts for every listed node exactly once: by its points, or by one failure.
-/

namespace NodeScrape

/-- A cycle returns no failure exactly where there are no causes to return. -/
theorem AggregateFailure.causes_eq_nil_iff (failure : Option AggregateFailure) :
    failure.elim [] causes = [] ↔ failure = none := by
  cases failure with
  | none => exact ⟨fun _ => rfl, fun _ => rfl⟩
  | some a => exact ⟨fun h => absurd h a.nonempty, nofun⟩

namespace Cycle

variable {nodes : List Node} {instruments : Instruments} {steps : List Step} {c : Cycle}
  {batch : Batch} {failure : Option AggregateFailure} {slot : Nat}

/-- What a node came to by the tasks' steps it came to by its client's result or by the end of its
scope. -/
theorem step_of_verdict? {o : NodeOutcome} (hs : (begin nodes instruments).steps? steps = some c)
    (ho : (begin nodes instruments).verdict? slot steps = some o) :
    ∃ before s after mid p, steps = before ++ s :: after ∧
      (begin nodes instruments).steps? before = some mid ∧
      mid.ledger.board.pending? slot = some p ∧
      ((namedNodes nodes).map Node.name)[slot]? = some p.node ∧
      ((∃ attempt took clock, s = .settle slot attempt took clock ∧
          o = attempt.outcome p.node took) ∨
        ∃ reason clock, s = .giveUp slot reason clock ∧ o = .error (.ofReason reason)) := by
  obtain ⟨before, s, after, mid, hsteps, hbefore, hmid⟩ := verdict?_eq_some hs ho
  obtain ⟨p, hp, hstep⟩ := outcomeAt?_eq_some.mp hmid
  obtain ⟨R, htally, -⟩ := (tally_begin nodes instruments).run hbefore
  exact ⟨before, s, after, mid, p, hsteps, hbefore, hp, htally.name_of_pending hp, hstep⟩

/-- Points come from a summary that settles the slot of their node and decodes to them. -/
theorem summary_of_verdict? {points : NodePoints}
    (hs : (begin nodes instruments).steps? steps = some c)
    (hv : (begin nodes instruments).verdict? slot steps = some (.ok points)) :
    ∃ name summary took clock, ((namedNodes nodes).map Node.name)[slot]? = some name ∧
      .settle slot (.answered summary) took clock ∈ steps ∧ summary.points name = .ok points := by
  obtain ⟨before, s, after, mid, p, rfl, -, -, hname, hstep⟩ := step_of_verdict? hs hv
  rcases hstep with ⟨attempt, took, clock, rfl, ho⟩ | ⟨reason, clock, -, ho⟩
  · cases attempt with
    | answered summary =>
      refine ⟨p.node, summary, took, clock, hname, by simp, ?_⟩
      cases hpoints : summary.points p.node with
      | ok q =>
        rw [Attempt.outcome, hpoints] at ho
        simpa [Except.mapError] using ho.symm
      | error defect =>
        rw [Attempt.outcome, hpoints] at ho
        cases ho
    | failed cause => cases ho
    | panicked payload => cases ho
  · cases ho

/-- A register that tallies with a cycle that has returned accounts for what it returned. -/
theorem Tally.returned {R : Register} (h : Tally nodes c R)
    (hr : c.result? = some (batch, failure)) :
    Accounts nodes R batch (failure.elim [] AggregateFailure.causes) ∧ R.awaited = [] := by
  have hstage := stage_of_result? hr
  simp only [Tally, hstage] at h
  exact ⟨h.1, h.2.1⟩

/-- A cycle that has returned has a register that accounts for what it returned and awaits no node;
a node came to what the tasks' steps made it come to, or else to being left out. -/
theorem exists_accounts (hs : (begin nodes instruments).steps? steps = some c)
    (hr : c.result? = some (batch, failure)) :
    ∃ R, Accounts nodes R batch (failure.elim [] AggregateFailure.causes) ∧ R.awaited = [] ∧
      ∀ slot e, R[slot]? = some e → ∃ o, e.outcome = some o ∧
        ((begin nodes instruments).verdict? slot steps = some o ∨
          (begin nodes instruments).verdict? slot steps = none ∧ ∃ late,
            o = .error (Ledger.lateCause late) ∧ (late = true → .cancelParent ∈ steps)) := by
  obtain ⟨R, htally, hrun⟩ := (tally_begin nodes instruments).run hs
  obtain ⟨hacc, hawaited⟩ := htally.returned hr
  refine ⟨R, hacc, hawaited, fun slot e he => ?_⟩
  obtain ⟨o, ho⟩ := Register.exists_outcome_of_awaited_nil hawaited (List.mem_of_getElem? he)
  have hslot : R.outcome? slot = some o := by rw [Register.outcome?, he, Option.bind_some, ho]
  refine ⟨o, ho, ?_⟩
  rcases hrun slot with hsame | ⟨-, hquiet, late, hlate, hwhy⟩
  · exact .inl (hsame.symm.trans hslot)
  · exact .inr ⟨hquiet, late, Option.some.inj (hslot.symm.trans hlate),
      fun hl => (hwhy hl).resolve_left Bool.false_ne_true⟩

/-- No order of steps keeps a cycle from returning, and one that has returned accounts for every
occurrence of a listed node exactly once. The batch has the points decoded from the summaries of the
nodes that were successful and nothing of any other node, every other node is named by one cause, a
node without a name by its number, and there is no failure exactly where every node was
successful. -/
theorem accounts_for_every_occurrence (hs : (begin nodes instruments).steps? steps = some c) :
    c.CanReturn ∧ ∀ batch failure, c.result? = some (batch, failure) →
      (batch.nodes.map NodePoint.name ++
        (failure.elim [] AggregateFailure.causes).map NodeFailure.node).Perm (listedNames nodes) ∧
      ∃ R : Register, R.map Entry.name = (namedNodes nodes).map Node.name ∧
        (∀ slot e, R[slot]? = some e → ∃ o, e.outcome = some o ∧
          ((begin nodes instruments).verdict? slot steps = some o ∨
            (begin nodes instruments).verdict? slot steps = none ∧
              (o = .error .canceled ∨ o = .error .deadlineExceeded)) ∧
          ∀ points, o = .ok points → ∃ summary took clock,
            .settle slot (.answered summary) took clock ∈ steps ∧
              summary.points e.name = .ok points) ∧
        batch.nodes.Perm (R.points.map NodePoints.node) ∧
        batch.pods.Perm (R.points.flatMap NodePoints.pods) ∧
        (failure.elim [] AggregateFailure.causes).Perm (namelessFailures nodes ++ R.failures) ∧
        (failure = none ↔ (∀ n ∈ nodes, n.name.isEmpty = false) ∧
          ∀ e ∈ R, ∃ points, e.outcome = some (.ok points)) := by
  refine ⟨canReturn c, fun batch failure hr => ?_⟩
  obtain ⟨R, hacc, hawaited, hends⟩ := exists_accounts hs hr
  refine ⟨hacc.names_perm hawaited, R, hacc.names, ?_, hacc.points, hacc.pods, hacc.failures, ?_⟩
  · intro slot e he
    obtain ⟨o, ho, hend⟩ := hends slot e he
    have hleft (late : Bool) (hlate : o = .error (Ledger.lateCause late)) :
        o = .error .canceled ∨ o = .error .deadlineExceeded := by
      cases late with
      | true => exact .inl hlate
      | false => exact .inr hlate
    refine ⟨o, ho, hend.imp_right fun ⟨hquiet, late, hlate, _⟩ => ⟨hquiet, hleft late hlate⟩, ?_⟩
    rintro points rfl
    rcases hend with hverdict | ⟨-, late, hlate, -⟩
    · obtain ⟨name, summary, took, clock, hname, hmem, hpoints⟩ := summary_of_verdict? hs hverdict
      obtain rfl : name = e.name := Option.some.inj (hname.symm.trans (hacc.name_of_entry he))
      exact ⟨summary, took, clock, hmem, hpoints⟩
    · cases hlate
  · rw [← AggregateFailure.causes_eq_nil_iff]
    exact hacc.failures_eq_nil_iff hawaited

/-- Two nodes of one name and one without any: the first failed, and the last was still awaited
when the time was up. -/
theorem accounts_for_every_occurrence_left_out :
    ((begin [⟨"a", [], true, none⟩, ⟨"", [], true, none⟩, ⟨"a", [], true, none⟩] {}).steps?
        [.start 0, .start 0, .settle 0 (.failed (.request "refused")) 0 ⟨0, 0⟩, .start 0, .started,
          .expire, .cutOff, .cancelSelf, .abort, .close, .leaveOut 0, .count, .collect]).bind
        result? =
      some ({}, some ⟨[⟨"<unnamed #1>", .missingIdentity⟩, ⟨"a", .request "refused"⟩,
        ⟨"a", .deadlineExceeded⟩], by decide⟩) ∧
      ["<unnamed #1>", "a", "a"].Perm
        (listedNames [⟨"a", [], true, none⟩, ⟨"", [], true, none⟩, ⟨"a", [], true, none⟩]) := by
  refine (and_iff_left_of_imp fun hrun => ?_).mpr rfl
  obtain ⟨c, hs, hr⟩ := Option.bind_eq_some_iff.mp hrun
  exact ((accounts_for_every_occurrence hs).2 _ _ hr).1

end Cycle

end NodeScrape
