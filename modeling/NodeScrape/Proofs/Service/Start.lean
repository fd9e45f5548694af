import Mathlib.Algebra.GroupWithZero.Nat
import NodeScrape.Proofs.Config.Validation
import NodeScrape.Proofs.Service.Shutdown
import NodeScrape.Service.Basic

/-!
# A start that fails

The modules are started one after another, and the first that fails ends the start. Nobody stops
those that run by then. The loop of a service whose server could not listen therefore goes on as if
the start had succeeded: a cycle begins again and again, nodes are asked, and the status follows.
-/

namespace NodeScrape

/-! ## The loop that nobody shuts down -/

namespace Scraper

/-- How many nodes a cycle attempts. -/
def asked (s : Scraper) : Nat :=
  match s.listing with
  | .ok nodes => (namedNodes nodes).length
  | .error _ => 0

theorem calls_scrape (s : Scraper) (parent : Ending) (begins : Nat) (instruments : Instruments) :
    (s.scrape parent begins instruments).calls = s.asked := by
  cases hlist : s.listing with
  | error chain => rw [scrape, asked, hlist]
  | ok nodes =>
    obtain ⟨c, batch, failure, -, -, hreport, -⟩ :=
      scrape_of_listing hlist parent begins instruments
    rw [hreport, asked, hlist]

/-- A scope lasts no longer than until the deadline of the one around it. -/
theorem length_span_le_of_deadline (s : Scraper) {parent : Ending} {deadline : Nat}
    (hd : parent.deadline = some deadline) (begins : Nat) :
    (s.span parent begins).length ≤ deadline - begins := by
  rw [span, Span.length, hd, Option.elim_some]
  cases parent.canceled with
  | none => exact Nat.min_le_left _ _
  | some canceled => exact Nat.le_trans (Nat.min_le_right _ _) (Nat.min_le_left _ _)

/-- A cycle returns within the grace period after its scope, whatever its clients do. -/
theorem finished_within_grace (s : Scraper) (parent : Ending) (begins : Nat)
    (instruments : Instruments) :
    begins ≤ (s.scrape parent begins instruments).finished ∧
      (s.scrape parent begins instruments).finished ≤
        begins + (s.span parent begins).length + CyclePlan.grace := by
  cases hlist : s.listing with
  | error chain =>
    rw [scrape, hlist, Nat.add_assoc]
    exact ⟨Nat.le_refl _, Nat.le_add_right _ _⟩
  | ok nodes =>
    have hseals := ((s.span parent begins).seals_le_iff
      ((namedNodes nodes).map fun n => (s.span parent begins).settles (s.client n)) _).mpr
        (.inr (Nat.le_refl _))
    rw [finished_of_listing hlist, sealTick, Nat.add_assoc]
    exact ⟨Nat.le_add_right _ _, Nat.add_le_add_left hseals _⟩

end Scraper

namespace ScrapeLoop

variable {p : LoopPlan} {l l' : ScrapeLoop} {s : Step} {t b : Nat}

theorem nextDue_le {resolution due now : Nat} (hdue : due ≤ now) :
    nextDue resolution due now ≤ now + resolution := by
  unfold nextDue
  split <;> omega

/-- A loop whose last cycle began at a tick goes on soon after it. -/
structure Pace (p : LoopPlan) (b : Nat) (l : ScrapeLoop) : Prop where
  since : b ≤ l.now
  now : l.now ≤ b + p.resolution + CyclePlan.grace
  due : l.due ≤ b + p.resolution
  running : ∀ report, l.stage = .scraping report →
    l.now ≤ report.finished ∧ report.finished ≤ b + p.resolution + CyclePlan.grace
  lastTick : ∃ tick ≤ b, l.status.lastTick = some (Duration.ofMillis tick)

/-- A loop that takes a tick keeps pace from then on. -/
theorem pace_beginCycle (hdue : l.due ≤ l.now) : Pace p l.now (beginCycle p l) := by
  refine ⟨Nat.le_refl _, ?_, nextDue_le hdue, ?_, l.due, hdue, rfl⟩
  · rw [Nat.add_assoc]
    exact Nat.le_add_right _ _
  · rintro report ⟨⟩
    obtain ⟨hafter, hbefore⟩ :=
      (p.scraper l.now).finished_within_grace (scope p l.due) l.now l.instruments
    have hlength := (p.scraper l.now).length_span_le_of_deadline
      (rfl : (scope p l.due).deadline = some (l.due + p.resolution)) l.now
    refine ⟨hafter, Nat.le_trans hbefore ?_⟩
    omega

/-- A loop that nobody shuts down does not find that it is. -/
theorem step?_stop_of_unshut (hshut : p.shutdown = none) : step? p l .stop = none := by
  rw [step?, hshut, Ending.reached_none, Bool.and_false, if_neg Bool.false_ne_true]

/-- A loop that nobody shuts down does not end. -/
theorem stage_ne_ended_of_step (hshut : p.shutdown = none) (hs : step? p l s = some l') :
    l'.stage ≠ .ended := by
  cases s with
  | wait =>
    obtain ⟨hstage, -, -, rfl⟩ := step?_wait.mp hs
    simp only [hstage]
    exact LoopStage.noConfusion
  | begin =>
    obtain ⟨-, -, rfl⟩ := step?_begin.mp hs
    exact LoopStage.noConfusion
  | stop =>
    rw [step?_stop_of_unshut hshut] at hs
    cases hs
  | store =>
    obtain ⟨report, -, rfl⟩ := step?_store.mp hs
    exact LoopStage.noConfusion

/-- The first thing that a loop does is to take the first tick. -/
theorem eq_begin_of_start (hshut : p.shutdown = none) (hs : step? p {} s = some l') :
    s = .begin := by
  cases s with
  | wait =>
    obtain ⟨-, hlt, -⟩ := step?_wait.mp hs
    exact absurd hlt (Nat.lt_irrefl 0)
  | begin => rfl
  | stop =>
    rw [step?_stop_of_unshut hshut] at hs
    cases hs
  | store =>
    obtain ⟨report, hstage, -⟩ := step?_store.mp hs
    cases hstage

/-- Until the next cycle begins every step keeps the pace. -/
theorem Pace.step (hshut : p.shutdown = none) (h : Pace p b l) (hs : step? p l s = some l')
    (hbegin : s ≠ .begin) : Pace p b l' ∧ l'.begun = l.begun ∧ l'.calls = l.calls := by
  have hsince := h.since
  have hdue := h.due
  cases s with
  | wait =>
    obtain ⟨hstage, hlt, -, rfl⟩ := step?_wait.mp hs
    rw [hshut, Option.elim_none]
    refine ⟨⟨?_, ?_, hdue, ?_, h.lastTick⟩, rfl, rfl⟩
    · exact Nat.le_trans hsince (Nat.le_of_lt hlt)
    · exact Nat.le_trans hdue (Nat.le_add_right _ _)
    · intro report hreport
      cases hstage.symm.trans hreport
  | begin => exact absurd rfl hbegin
  | stop =>
    rw [step?_stop_of_unshut hshut] at hs
    cases hs
  | store =>
    obtain ⟨report, hstage, rfl⟩ := step?_store.mp hs
    obtain ⟨hafter, hbefore⟩ := h.running report hstage
    refine ⟨⟨Nat.le_trans hsince hafter, hbefore, hdue, fun _ => LoopStage.noConfusion, ?_⟩, rfl,
      rfl⟩
    rw [Status.lastTick_store]
    exact h.lastTick

/-- A loop goes on: it has not ended and keeps pace with the last cycle that it has begun. -/
structure GoesOn (p : LoopPlan) (l : ScrapeLoop) : Prop where
  stage : l.stage ≠ .ended
  /-- All named nodes of the cycles that it has begun were attempted. -/
  calls : l.calls = (l.begun.map fun b => (p.scraper b).asked).sum
  pace : l = {} ∨ ∃ b rest, l.begun = b :: rest ∧ Pace p b l

theorem goesOn_start (p : LoopPlan) : GoesOn p {} :=
  ⟨LoopStage.noConfusion, rfl, .inl rfl⟩

/-- Every step of a loop that nobody shuts down leaves it going on. -/
theorem GoesOn.step (hshut : p.shutdown = none) (h : GoesOn p l) (hs : step? p l s = some l') :
    GoesOn p l' := by
  have hstage := stage_ne_ended_of_step hshut hs
  by_cases hbegin : s = .begin
  · subst hbegin
    obtain ⟨-, hdue, rfl⟩ := step?_begin.mp hs
    refine ⟨hstage, ?_, .inr ⟨l.now, l.begun, rfl, pace_beginCycle hdue⟩⟩
    simp only [beginCycle_eq, List.map_cons, List.sum_cons, Scraper.calls_scrape, h.calls]
    exact Nat.add_comm _ _
  · rcases h.pace with rfl | ⟨b, rest, hbegun, hpace⟩
    · exact absurd (eq_begin_of_start hshut hs) hbegin
    · obtain ⟨hpace', hbegun', hcalls'⟩ := hpace.step hshut hs hbegin
      refine ⟨hstage, ?_, .inr ⟨b, rest, hbegun'.trans hbegun, hpace'⟩⟩
      rw [hcalls', hbegun']
      exact h.calls

/-- A loop that nobody shuts down goes on at the time to which its only step brings it. -/
theorem next?_of_step (hshut : p.shutdown = none) (hs : step? p l s = some l') :
    next? p l = some (l'.now, s) := by
  cases s with
  | wait =>
    obtain ⟨hstage, hlt, -, rfl⟩ := step?_wait.mp hs
    simp [next?, hstage, hshut, Nat.not_le.mpr hlt]
  | begin =>
    obtain ⟨hstage, hdue, rfl⟩ := step?_begin.mp hs
    simp [next?, hstage, hshut, hdue, beginCycle_eq]
  | stop =>
    rw [step?_stop_of_unshut hshut] at hs
    cases hs
  | store =>
    obtain ⟨report, hstage, rfl⟩ := step?_store.mp hs
    simp [next?, hstage]

/-- Every step up to a time brings a loop nearer to it; the measure is that of a loop that is shut
down then. -/
theorem stepsLeft_step (hshut : p.shutdown = none) (hres : 0 < p.resolution)
    (hs : step? p l s = some l') (hnow : l'.now ≤ t) : l'.stepsLeft t < l.stepsLeft t := by
  cases s with
  | wait =>
    obtain ⟨hstage, hlt, -, rfl⟩ := step?_wait.mp hs
    simp only [hshut, Option.elim_none] at hnow ⊢
    simp only [stepsLeft, hstage]
    rw [if_neg (by omega), if_pos ⟨by omega, hlt⟩]
    omega
  | begin =>
    obtain ⟨hstage, hdue, rfl⟩ := step?_begin.mp hs
    have hlater := lt_nextDue hres hdue
    have hnow : l.now ≤ t := hnow
    simp only [stepsLeft, beginCycle_eq, hstage]
    split <;> omega
  | stop =>
    rw [step?_stop_of_unshut hshut] at hs
    cases hs
  | store =>
    obtain ⟨report, hstage, rfl⟩ := step?_store.mp hs
    simp only [stepsLeft, hstage]
    split <;> omega

/-- With steps enough a loop that nobody shuts down comes to a time and goes on only after it. -/
theorem GoesOn.runUntil (hshut : p.shutdown = none) (hres : 0 < p.resolution) {fuel : Nat}
    (h : GoesOn p l) (hnow : l.now ≤ t) (hfuel : l.stepsLeft t ≤ fuel) :
    GoesOn p (runUntil p t fuel l) ∧ (runUntil p t fuel l).now ≤ t ∧
      ∃ s l', step? p (ScrapeLoop.runUntil p t fuel l) s = some l' ∧ t < l'.now := by
  induction fuel generalizing l with
  | zero =>
    cases hstage : l.stage with
    | waiting =>
      simp only [stepsLeft, hstage] at hfuel
      split at hfuel <;> omega
    | scraping report =>
      simp only [stepsLeft, hstage] at hfuel
      omega
    | ended => exact absurd hstage h.stage
  | succ fuel ih =>
    obtain ⟨s, l', hs⟩ := exists_step p h.stage
    simp only [ScrapeLoop.runUntil, next?_of_step hshut hs, hs, Option.getD_some]
    by_cases hnow' : l'.now ≤ t
    · have hless := stepsLeft_step hshut hres hs hnow'
      rw [if_pos hnow']
      exact ih (h.step hshut hs) hnow' (by omega)
    · rw [if_neg hnow']
      exact ⟨h, hnow, s, l', hs, Nat.lt_of_not_le hnow'⟩

/-- However late it is, a loop that nobody shuts down has begun a cycle not long ago. -/
theorem goesOn_atTime (hshut : p.shutdown = none) (hres : 0 < p.resolution) (t : Nat) :
    GoesOn p (atTime p t) ∧ ∃ b rest, (atTime p t).begun = b :: rest ∧ Pace p b (atTime p t) ∧
      b ≤ t ∧ t < b + p.resolution + CyclePlan.grace := by
  have hfuel : stepsLeft t {} ≤ 3 * (t + 2) := by
    simp only [stepsLeft]
    rw [if_neg (by omega)]
    omega
  obtain ⟨hgoes, hnow, s, l', hs, hlate⟩ :=
    (goesOn_start p).runUntil hshut hres (Nat.zero_le t) hfuel
  rw [← atTime] at hgoes hnow hs
  refine ⟨hgoes, ?_⟩
  rcases hgoes.pace with hstart | ⟨b, rest, hbegun, hpace⟩
  · rw [hstart] at hs
    obtain rfl := eq_begin_of_start hshut hs
    obtain ⟨-, -, rfl⟩ := step?_begin.mp hs
    exact absurd hlate (Nat.not_lt_zero t)
  · refine ⟨b, rest, hbegun, hpace, Nat.le_trans hpace.since hnow, ?_⟩
    -- A tick that is due is taken at once, and the next step comes later: it takes none.
    have hbegin : s ≠ .begin := by
      rintro rfl
      obtain ⟨-, -, rfl⟩ := step?_begin.mp hs
      exact absurd hnow (Nat.not_le.mpr hlate)
    obtain ⟨hpace', -, -⟩ := hpace.step hshut hs hbegin
    exact Nat.lt_of_lt_of_le hlate hpace'.now

end ScrapeLoop

/-! ## The start -/

namespace Config

variable {text : String} {c : Config}

theorem parse_of_decode (hc : decode text = .ok c) (path : Path) :
    parse text path = c.checked path := by
  -- The equations of `parse` would have the decoder unfolded.
  delta parse
  rw [hc]

/-- A configuration that is accepted may be used. -/
theorem valid_of_parse {path : Path} (hc : parse text path = .ok c) : c.Valid := by
  cases hdecode : decode text with
  | error e =>
    delta parse at hc
    rw [hdecode] at hc
    cases hc
  | ok d =>
    rw [parse_of_decode hdecode] at hc
    obtain ⟨hvalid, rfl⟩ := checked_eq_ok_iff.mp hc
    exact ⟨hvalid.resolution, hvalid.timeout, hvalid.named, hvalid.distinct⟩

end Config

namespace Service

variable {w : Surroundings}

/-- Why a module cannot be started. -/
def failure? (w : Surroundings) : Module → Option Failure
  | .scrapeLoop => none
  | .server => match w.bind with
    | .ok _ => none
    | .error detail => some (.httpServe w.listen detail)

/-- The modules that are started before the first that cannot be. -/
def startable (w : Surroundings) (ms : List Module) : List Module :=
  ms.takeWhile fun m => (failure? w m).isNone

theorem startModule_of_failure {s : Service} {m : Module} {failure : Failure}
    (h : failure? w m = some failure) : startModule w s m = .error failure := by
  cases m with
  | scrapeLoop => cases h
  | server => cases hbind : w.bind <;> simp_all [failure?, startModule]

theorem startModule_of_no_failure {m : Module} (h : failure? w m = none) (s : Service) :
    ∃ s', startModule w s m = .ok s' ∧ s'.running = s.running ++ [m] := by
  cases m with
  | scrapeLoop => exact ⟨_, rfl, rfl⟩
  | server =>
    cases hbind : w.bind with
    | ok address => exact ⟨_, by rw [startModule, hbind], rfl⟩
    | error detail => simp [failure?, hbind] at h

/-- Whatever the modules and their order, the first that cannot be started ends the start with its
failure, and those before it run then. -/
theorem startModules_eq (w : Surroundings) (s : Service) (ms : List Module) :
    (startModules w s ms).1 = ms.findSome? (failure? w) ∧
      (startModules w s ms).2.running = s.running ++ startable w ms := by
  induction ms generalizing s with
  | nil => exact ⟨rfl, (List.append_nil _).symm⟩
  | cons m rest ih =>
    cases hm : failure? w m with
    | none =>
      obtain ⟨s', hstart, hrunning⟩ := startModule_of_no_failure hm s
      obtain ⟨hfirst, hrest⟩ := ih s'
      simp only [startModules, hstart, List.findSome?_cons, hm]
      refine ⟨hfirst, ?_⟩
      rw [hrest, hrunning, startable, startable, List.takeWhile_cons_of_pos (by rw [hm]; rfl),
        List.append_assoc, List.singleton_append]
    | some failure =>
      simp only [startModules, startModule_of_failure hm, List.findSome?_cons, hm, true_and]
      rw [startable, List.takeWhile_cons_of_neg (by rw [hm]; exact Bool.false_ne_true),
        List.append_nil]

/-- Whether the start succeeds or not, the scrape loop runs after it. -/
theorem loopAt_start (w : Surroundings) (p : LoopPlan) (t : Nat) :
    (start w).2.loopAt p t = ScrapeLoop.atTime p t := by
  obtain ⟨-, hrunning⟩ := startModules_eq w {} Module.all
  have hloop : Module.scrapeLoop ∈ (start w).2.running := by
    rw [start, hrunning, Module.all, startable, List.takeWhile_cons_of_pos rfl]
    exact List.mem_cons_self
  exact if_pos hloop

/-- The start fails only if the server cannot listen. -/
theorem bind_of_start_fails {failure : Failure} (h : (start w).1 = some failure) :
    ∃ detail, w.bind = .error detail ∧ failure = .httpServe w.listen detail := by
  obtain ⟨hfirst, -⟩ := startModules_eq w {} Module.all
  rw [start, hfirst] at h
  cases hbind : w.bind with
  | ok address => simp [Module.all, failure?, hbind, List.findSome?_cons] at h
  | error detail =>
    refine ⟨detail, rfl, ?_⟩
    simpa [Module.all, failure?, hbind, List.findSome?_cons, eq_comm] using h

/-- A start that fails tells that the server cannot listen, and leaves the scrape loop running. For
every accepted configuration, whatever the nodes, their listing and their clients do, the loop does
all that it does after a start that succeeds, as long as nobody shuts it down. However late it is,
the loop has not ended, it has begun a cycle not longer ago than the resolution and the grace period
together, the nodes of all its cycles were attempted, and its status tells of the last tick and
shows the cycles that are over. If no client holds its thread, a cycle has begun at every tick. -/
theorem scrapes_on_after_failed_start {text : String} {path : Path} {c : Config}
    (hc : Config.parse text path = .ok c) (hlisten : w.listen = c.listen) {failure : Failure}
    (hfail : (start w).1 = some failure) {p : LoopPlan}
    (hresolution : p.resolution = c.metricResolutionMs.toNat) (hshut : p.shutdown = none) :
    (∃ detail, w.bind = .error detail ∧ failure = .httpServe c.listen detail) ∧
    (start w).2.running = [.scrapeLoop] ∧
    ∀ t l, l = (start w).2.loopAt p t →
      (∀ w', (start w').1 = none → l = (start w').2.loopAt p t) ∧
      l.stage ≠ .ended ∧
      (∃ b ∈ l.begun, b ≤ t ∧ t < b + p.resolution + CyclePlan.grace ∧
        ∃ tick ≤ b, l.status.lastTick = some (Duration.ofMillis tick)) ∧
      l.calls = (l.begun.map fun b => (p.scraper b).asked).sum ∧
      (∃ cycles, ScrapeLoop.Shows p l cycles) ∧
      (p.Yields →
        l.begun = ((List.range (t / p.resolution + 1)).map (· * p.resolution)).reverse) := by
  have hres : 0 < p.resolution := by
    rw [hresolution]
    refine Nat.pos_of_ne_zero fun hzero => (Config.valid_of_parse hc).resolution ?_
    exact UInt64.toNat_inj.mp hzero
  obtain ⟨detail, hbind, rfl⟩ := bind_of_start_fails hfail
  refine ⟨⟨detail, hbind, hlisten ▸ rfl⟩, ?_, ?_⟩
  · obtain ⟨-, hrunning⟩ := startModules_eq w {} Module.all
    rw [start, hrunning]
    simp [startable, Module.all, failure?, hbind]
  · rintro t l rfl
    rw [loopAt_start]
    obtain ⟨hgoes, b, rest, hbegun, hpace, hb, ht⟩ := ScrapeLoop.goesOn_atTime hshut hres t
    obtain ⟨steps, hsteps⟩ := ScrapeLoop.exists_steps_runUntil p t (3 * (t + 2)) {}
    refine ⟨fun w' _ => (loopAt_start w' p t).symm, hgoes.stage, ⟨b, ?_, hb, ht, hpace.lastTick⟩,
      hgoes.calls, ⟨_, (ScrapeLoop.shows_start p).run hsteps⟩, fun hyields => ?_⟩
    · rw [hbegun]
      exact List.mem_cons_self
    · obtain ⟨hgrid, hlength, -⟩ := ScrapeLoop.onGrid_atTime ⟨hres, hshut, hyields⟩ t
      rw [← hlength]
      exact hgrid.begun

/-- An address of another machine cannot be listened at, and the only client holds its thread for
good: an hour later a cycle has begun within the last minute. -/
theorem scrapes_on_after_failed_start_elsewhere :
    let text := "listen: 192.0.2.1:4443\n"
    let detail := "error creating server listener: Cannot assign requested address (os error 99)"
    let p := LoopPlan.mk 60000 (fun _ => ⟨.ok [⟨"a", [], true, none⟩],
      fun _ => ⟨none, true, true, .failed (.request "reset")⟩, 10000, ⟨0, 0⟩⟩) none
    ∃ c w, Config.parse text ⟨"scraper.yaml"⟩ = .ok c ∧ w.listen = c.listen ∧
      (start w).1 = some (.httpServe c.listen detail) ∧
      ∃ b ∈ ((start w).2.loopAt p 3600000).begun, 3539980 < b ∧ b ≤ 3600000 := by
  intro text detail p
  let c : Config := { listen := .v4 ⟨192, 0, 2, 1⟩ 4443 }
  have hdecode : Config.decode text = .ok c := Config.decode_of_toOption (by decide +kernel)
  have hvalid : c.Valid := ⟨by decide, by decide, by simp [c], by simp [c]⟩
  have hc := (Config.parse_of_decode hdecode ⟨"scraper.yaml"⟩).trans
    (Config.checked_eq_ok_iff.mpr ⟨hvalid, rfl⟩)
  let w : Surroundings := ⟨c.listen, .error detail⟩
  obtain ⟨-, -, hruns⟩ := scrapes_on_after_failed_start (w := w) hc rfl rfl (p := p) rfl rfl
  obtain ⟨-, -, ⟨b, hb, hle, hlt, -⟩, -⟩ := hruns 3600000 _ rfl
  have hlt : 3600000 < b + 60000 + 20 := hlt
  exact ⟨_, w, hc, rfl, rfl, b, hb, by omega, hle⟩

/-- The address is taken. Still a cycle begins every second, its node is asked, and the status is no
longer what it was. -/
theorem exists_cycles_after_failed_start :
    let text := "metric_resolution_ms: 1000\nscrape_timeout_ms: 500\n"
    let detail := "error creating server listener: Address already in use (os error 98)"
    let p := LoopPlan.mk 1000 (fun _ => ⟨.ok [⟨"a", [], true, none⟩],
      fun _ => ⟨some 0, false, false, .failed (.request "reset")⟩, 500, ⟨0, 0⟩⟩) none
    ∃ c w, Config.parse text ⟨"scraper.yaml"⟩ = .ok c ∧ w.listen = c.listen ∧
      p.resolution = c.metricResolutionMs.toNat ∧ p.shutdown = none ∧
      (start w).1 = some (.httpServe c.listen detail) ∧
      ((start w).2.loopAt p 2500).begun = [2000, 1000, 0] ∧
      ((start w).2.loopAt p 2500).calls = 3 ∧
      ((start w).2.loopAt p 2500).status.lastTick ≠ ({} : Status).lastTick := by
  intro text detail p
  let c : Config := { metricResolutionMs := 1000, scrapeTimeoutMs := 500 }
  have hdecode : Config.decode text = .ok c := Config.decode_of_toOption (by decide +kernel)
  have hvalid : c.Valid := ⟨by decide, by decide, by simp [c], by simp [c]⟩
  have hc := (Config.parse_of_decode hdecode ⟨"scraper.yaml"⟩).trans
    (Config.checked_eq_ok_iff.mpr ⟨hvalid, rfl⟩)
  have hp : p.Undisturbed := ⟨by decide, rfl, fun _ _ _ _ _ => rfl⟩
  obtain ⟨hgrid, hlength, -⟩ := ScrapeLoop.onGrid_atTime hp 2500
  obtain ⟨hgoes, b, rest, -, hpace, -⟩ := ScrapeLoop.goesOn_atTime hp.shutdown hp.resolution 2500
  have hbegun : (ScrapeLoop.atTime p 2500).begun = [2000, 1000, 0] := by
    have hresolution : p.resolution = 1000 := rfl
    rw [hgrid.begun, hlength, hresolution]
    decide
  have hcalls : (ScrapeLoop.atTime p 2500).calls = 3 := by
    rw [hgoes.calls, hbegun]
    rfl
  obtain ⟨tick, -, htick⟩ := hpace.lastTick
  refine ⟨_, ⟨c.listen, .error detail⟩, hc, rfl, rfl, rfl, rfl, ?_⟩
  rw [loopAt_start, htick]
  exact ⟨hbegun, hcalls, Option.some_ne_none _⟩

end Service

end NodeScrape
