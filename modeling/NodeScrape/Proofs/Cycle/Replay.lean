import NodeScrape.Proofs.Cycle.Calls
import NodeScrape.Proofs.Cycle.Scrape

/-!
# Scrapes are calls

A scrape on the virtual clock is one call among others that share its instruments: its steps are
events of the call.
-/

namespace NodeScrape

namespace Calls

variable {s : Calls} {index : Nat} {c c' : Cycle}

/-- The steps of a cycle are events of its call. -/
theorem events?_steps {steps : List Cycle.Step} (hcycle : s.cycle? index = some c)
    (hi : c.ledger.instruments = s.instruments) (h : c.steps? steps = some c') :
    s.events? (steps.map (.step index)) =
      some ⟨c'.ledger.instruments, s.calls.set index (.listed c')⟩ := by
  induction steps generalizing s c with
  | nil =>
    cases h
    obtain ⟨hlt, hget⟩ := List.getElem?_eq_some_iff.mp (cycle?_eq_some.mp hcycle)
    rw [hi, ← hget, List.set_getElem_self]
    rfl
  | cons st rest ih =>
    obtain ⟨next, hnext, hrest⟩ := Cycle.steps?_cons.mp h
    obtain ⟨hlt, -⟩ := List.getElem?_eq_some_iff.mp (cycle?_eq_some.mp hcycle)
    have hsame : c.withInstruments s.instruments = c := by
      rw [← hi]
      rfl
    have hevent : s.event? (.step index st) =
        some ⟨next.ledger.instruments, s.calls.set index (.listed next)⟩ := by
      rw [event?, hcycle, Option.bind_some, hsame, hnext]
      rfl
    have hfound : cycle? ⟨next.ledger.instruments, s.calls.set index (.listed next)⟩ index =
        some next := cycle?_eq_some.mpr (List.getElem?_set_self hlt)
    have htail := ih hfound rfl hrest
    rw [List.set_set] at htail
    exact events?_cons.mpr ⟨_, hevent, htail⟩

end Calls

namespace Scraper

/-- The names of the nodes that a scrape attempts; none if the nodes cannot be listed. -/
def attempted (s : Scraper) : List String :=
  match s.listing with
  | .error _ => []
  | .ok nodes => (namedNodes nodes).map Node.name

/-- What a scrape leaves and hands out is what a call leaves and hands out, the last of the calls
that share its instruments. -/
theorem scrape_events (s : Scraper) (parent : Ending) (begins : Nat) (calls : Calls) :
    ∃ events call, calls.events? events =
        some ⟨(s.scrape parent begins calls.instruments).instruments, calls.calls ++ [call]⟩ ∧
      call.result? = some ((s.scrape parent begins calls.instruments).batch,
        (s.scrape parent begins calls.instruments).failure) ∧
      events.flatMap Call.Event.names = s.attempted ∧
      events.countP Call.Event.isCall = 1 := by
  cases hlist : s.listing with
  | error chain =>
    refine ⟨[.fail chain], .unlisted chain, ?_, ?_, ?_, rfl⟩
    · rw [scrape, hlist]
      rfl
    · rw [scrape, hlist]
      rfl
    · rw [attempted, hlist]
      rfl
  | ok nodes =>
    obtain ⟨deadline, hd, -⟩ := s.exists_span_plan nodes parent begins
    obtain ⟨c, batch, failure, hrun, hresult, -⟩ :=
      CyclePlan.run_seals hd calls.instruments
    obtain ⟨steps, hsteps⟩ := CyclePlan.reaches_run _ _ hrun
    have hreport := scrape_of_run hlist hrun hresult
    have hnew : Calls.cycle? ⟨calls.instruments,
        calls.calls ++ [.listed (Cycle.begin nodes calls.instruments)]⟩ calls.calls.length =
        some (Cycle.begin nodes calls.instruments) :=
      Calls.cycle?_eq_some.mpr (by simp)
    have hevents := Calls.events?_steps hnew rfl hsteps
    rw [List.set_append_right _ _ (Nat.le_refl _), Nat.sub_self] at hevents
    refine ⟨.list nodes :: steps.map (.step calls.calls.length), .listed c, ?_, ?_, ?_, ?_⟩
    · rw [hreport]
      exact Calls.events?_cons.mpr ⟨_, rfl, hevents⟩
    · rw [hreport, Call.result?, hresult]
      rfl
    · rw [attempted, hlist, List.flatMap_cons, List.flatMap_map]
      simp [Call.Event.names]
    · rw [List.countP_cons, List.countP_map]
      simp [Call.Event.isCall]

end Scraper

end NodeScrape
