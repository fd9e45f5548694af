import NodeScrape.Proofs.Service.Published

/-!
# The scrape loop is shut down

A loop that is shut down takes no tick that becomes due later. A cycle that runs then is over when
the grace period is, and reports the nodes for which it still waits as canceled. After it the loop
ends, and its status shows all cycles that it has begun.
-/

namespace NodeScrape

namespace Scraper

variable {s : Scraper} {parent : Ending} {nodes : List Node} {begins S : Nat} {n : Node}

/-- A cycle still waits for a node when the scope around it is canceled: the client has no result,
and if it heeds its scope the time of the cycle is not up. -/
structure AwaitsAt (s : Scraper) (parent : Ending) (begins S : Nat) (n : Node) : Prop where
  unready : Ending.reached ((s.client n).moment begins) S = false
  inTime : (s.client n).holdsThread = true ∨
    Ending.reached (s.ending parent begins).deadline S = false

/-- A scope lasts no longer than until the one around it is canceled. -/
theorem length_span_le_of_canceled (s : Scraper) (hS : parent.canceled = some S) (begins : Nat) :
    (s.span parent begins).length ≤ S - begins := by
  rw [span, Span.length, hS, Option.map_some, Option.elim_some]
  exact Nat.min_le_left _ _

theorem finished_of_listing (hlist : s.listing = .ok nodes) (parent : Ending) (begins : Nat)
    (instruments : Instruments) :
    (s.scrape parent begins instruments).finished = s.sealTick nodes parent begins := by
  obtain ⟨c, batch, failure, -, -, hreport, -⟩ := scrape_of_listing hlist parent begins instruments
  rw [hreport]

/-- A cycle that begins before the scope around it is canceled returns within the grace period after
that. -/
theorem finished_le_of_canceled (s : Scraper) (hS : parent.canceled = some S) (hb : begins ≤ S)
    (instruments : Instruments) :
    (s.scrape parent begins instruments).finished ≤ S + CyclePlan.grace := by
  cases hlist : s.listing with
  | error chain =>
    rw [scrape, hlist]
    exact Nat.le_trans hb (Nat.le_add_right _ _)
  | ok nodes =>
    have hlength := s.length_span_le_of_canceled hS begins
    have hseals := ((s.span parent begins).seals_le_iff
      ((namedNodes nodes).map fun n => (s.span parent begins).settles (s.client n)) _).mpr
        (.inr (Nat.le_refl _))
    rw [finished_of_listing hlist]
    unfold sealTick
    omega

/-- A task whose client heeds its scope ends with the scope if the cycle awaits it then. -/
theorem AwaitsAt.ends (h : s.AwaitsAt parent begins S n) (hS : parent.canceled = some S)
    (hb : begins ≤ S) (hn : (s.client n).holdsThread = false) (own : NodeOutcome) :
    begins + (s.span parent begins).ends (s.client n).delay = S ∧
      (s.span parent begins).outcome (s.client n).delay own = .error .canceled := by
  have hdeadline : S < begins + (s.span parent begins).deadline := by
    have hinTime := h.inTime.resolve_left (by rw [hn]; nofun)
    simp only [ending, Ending.reached_some, decide_eq_false_iff_not] at hinTime
    rw [span]
    cases hd : parent.deadline with
    | none =>
      simp only [hd, Option.elim_none] at hinTime ⊢
      omega
    | some d =>
      simp only [hd, Option.elim_some] at hinTime ⊢
      omega
  have hcanceled : (s.span parent begins).canceled = some (S - begins) := by
    rw [span, hS, Option.map_some]
  have hlength : begins + (s.span parent begins).length = S := by
    rw [Span.length, hcanceled, Option.elim_some]
    omega
  have hreason : (s.span parent begins).reason = .canceled := by
    rw [Span.reason, hcanceled, Option.any_some, if_pos]
    rw [decide_eq_true_iff]
    omega
  rcases (s.span parent begins).ends_own_or_with (s.client n).delay with
    ⟨d, hdelay, hle, -, -⟩ | ⟨-, hends, houtcome⟩
  · have hunready := h.unready
    simp only [Behavior.moment, hdelay, Option.map_some, Ending.reached_some,
      decide_eq_false_iff_not] at hunready
    omega
  · exact ⟨hends ▸ hlength, (houtcome own).trans (by rw [hreason]; rfl)⟩

/-- A node for which a cycle still waits when the scope around it is canceled is reported as
canceled, unless its client holds its thread and comes back before the cycle returns. -/
theorem sealsTo_of_awaitsAt (h : s.AwaitsAt parent begins S n) (hS : parent.canceled = some S)
    (hb : begins ≤ S) (hseal : S ≤ s.sealTick nodes parent begins) :
    s.sealsTo nodes parent begins n =
      if (s.client n).holdsThread = true ∧
          Ending.reached ((s.client n).moment begins) (s.sealTick nodes parent begins) = true then
        (s.client n).result.outcome n.name (WallTime.since s.clock.later s.clock.now)
      else .error .canceled := by
  have hlate : Ending.reached parent.canceled (s.sealTick nodes parent begins) = true := by
    rw [hS, Ending.reached_some, decide_eq_true hseal]
  rw [sealsTo, if_pos hlate, Span.settles, Span.settlesTo]
  cases hn : (s.client n).holdsThread with
  | true => simp only [if_true, true_and, Behavior.moment]
  | false =>
    obtain ⟨hends, houtcome⟩ := h.ends hS hb hn
      ((s.client n).result.outcome n.name (WallTime.since s.clock.later s.clock.now))
    simp only [Bool.false_eq_true, if_false, false_and, Option.map_some, Ending.reached_some, hends,
      hseal, decide_true, if_true, houtcome]

/-- What a cycle that is called off reports: it is over when the grace period is, and accounts for
every node, as canceled for those that it still awaited. -/
structure CallsOff (s : Scraper) (parent : Ending) (begins S : Nat) (report : CycleReport) :
    Prop where
  finished : report.finished ≤ S + CyclePlan.grace
  accounts : ∀ nodes, s.listing = .ok nodes → ∃ failure : Option AggregateFailure,
    report.failure = failure.map .nodes ∧
    Accounts nodes
      ((namedNodes nodes).map fun n => ⟨n.name, some (s.sealsTo nodes parent begins n)⟩)
      report.batch (failure.elim [] AggregateFailure.causes) ∧
    ∀ n, s.AwaitsAt parent begins S n → s.sealsTo nodes parent begins n =
      if (s.client n).holdsThread = true ∧
          Ending.reached ((s.client n).moment begins) report.finished = true then
        (s.client n).result.outcome n.name (WallTime.since s.clock.later s.clock.now)
      else .error .canceled

/-- A cycle that runs when the scope around it is canceled is called off. -/
theorem callsOff_scrape (hS : parent.canceled = some S) (hb : begins ≤ S)
    {instruments : Instruments} (hlate : S ≤ (s.scrape parent begins instruments).finished) :
    s.CallsOff parent begins S (s.scrape parent begins instruments) := by
  refine ⟨s.finished_le_of_canceled hS hb instruments, fun nodes hlist => ?_⟩
  obtain ⟨c, batch, failure, -, -, hreport, hacc⟩ :=
    scrape_of_listing hlist parent begins instruments
  rw [hreport] at hlate ⊢
  exact ⟨failure, rfl, hacc, fun n hn => sealsTo_of_awaitsAt hn hS hb hlate⟩

end Scraper

namespace ScrapeLoop

variable {p : LoopPlan} {l l' : ScrapeLoop} {s : Step} {steps : List Step} {S : Nat}

/-- The waiting loop finds that it is shut down and that a tick is due, so that it may go on with
either. -/
structure Torn (S : Nat) (l : ScrapeLoop) : Prop where
  stage : l.stage = .waiting
  shut : S ≤ l.now
  due : l.due ≤ l.now

/-- A run of the loop comes through a state. -/
def Visits (p : LoopPlan) (steps : List Step) (l : ScrapeLoop) : Prop :=
  ∃ before, before <+: steps ∧ steps? p {} before = some l

/-- A run comes back to wait before ticks are due that become so after the loop was shut down. -/
def Punctual (p : LoopPlan) (S : Nat) (steps : List Step) : Prop :=
  ∀ l, Visits p steps l → l.Torn S → l.now = S

theorem steps?_append (p : LoopPlan) (l : ScrapeLoop) (steps more : List Step) :
    steps? p l (steps ++ more) = (steps? p l steps).bind (steps? p · more) := by
  induction steps generalizing l with
  | nil => rfl
  | cons s rest ih =>
    rw [List.cons_append, steps?, steps?, Option.bind_assoc]
    exact Option.bind_congr fun next _ => ih next

theorem steps?_concat :
    steps? p l (steps ++ [s]) = some l' ↔
      ∃ mid, steps? p l steps = some mid ∧ step? p mid s = some l' := by
  rw [steps?_append, Option.bind_eq_some_iff]
  simp [steps?]

/-- A run comes through the states of a run that it goes on from. -/
theorem Visits.mono (h : Visits p steps l) (more : List Step) : Visits p (steps ++ more) l := by
  obtain ⟨before, hprefix, hbefore⟩ := h
  exact ⟨before, hprefix.trans (List.prefix_append _ _), hbefore⟩

theorem visits_last (hs : steps? p {} steps = some l) : Visits p steps l :=
  ⟨steps, List.prefix_rfl, hs⟩

/-- Taking a tick makes a later one due. -/
theorem lt_nextDue {resolution due now : Nat} (hres : 0 < resolution) (hdue : due ≤ now) :
    due < nextDue resolution due now := by
  have hmod := Nat.mod_lt (now - due) hres
  unfold nextDue
  split <;> omega

/-- How many steps a loop may still take that is shut down at a tick. -/
def stepsLeft (S : Nat) (l : ScrapeLoop) : Nat :=
  match l.stage with
  | .waiting => 3 * (S + 1 - l.due) + if l.now < S ∧ l.now < l.due then 2 else 1
  | .scraping _ => 3 * (S + 1 - l.due) + 3
  | .ended => 0

/-- A loop is to be shut down at a tick, or was. -/
structure WindsDown (p : LoopPlan) (S : Nat) (steps : List Step) (l : ScrapeLoop) : Prop where
  begun : ∀ b ∈ l.begun, b ≤ S ∧ (b = S → ∃ torn, Visits p steps torn ∧ torn.Torn S)
  now : l.now ≤ S + CyclePlan.grace
  running : ∀ report, l.stage = .scraping report → l.now ≤ S ∧ ∃ due instruments, due ≤ l.now ∧
    l.status.lastTick = some (Duration.ofMillis due) ∧
    report = (p.scraper l.now).scrape (scope p due) l.now instruments
  ended : l.stage = .ended → S ≤ l.now
  left : steps.length + l.stepsLeft S ≤ 3 * S + 4

theorem windsDown_start (p : LoopPlan) (S : Nat) : WindsDown p S [] {} := by
  refine ⟨fun b hb => absurd hb List.not_mem_nil, Nat.zero_le _, fun _ => LoopStage.noConfusion,
    LoopStage.noConfusion, ?_⟩
  simp only [stepsLeft, List.length_nil]
  rw [if_neg (by omega)]
  omega

/-- Further steps do not change when the cycles so far have begun. -/
theorem WindsDown.begun_concat (h : WindsDown p S steps l) (s : Step) : ∀ b ∈ l.begun,
    b ≤ S ∧ (b = S → ∃ torn, Visits p (steps ++ [s]) torn ∧ torn.Torn S) := by
  intro b hb
  obtain ⟨hle, htorn⟩ := h.begun b hb
  refine ⟨hle, fun heq => ?_⟩
  obtain ⟨torn, hvisits, htorn⟩ := htorn heq
  exact ⟨torn, hvisits.mono [s], htorn⟩

/-- A loop waits no longer than until it is shut down. -/
theorem WindsDown.wait (hS : p.shutdown = some S) (h : WindsDown p S steps l)
    (hs : step? p l .wait = some l') : WindsDown p S (steps ++ [.wait]) l' := by
  obtain ⟨hstage, hlt, hrunning, rfl⟩ := step?_wait.mp hs
  rw [hS, Ending.reached_some, decide_eq_false_iff_not] at hrunning
  have hleft := h.left
  simp only [stepsLeft, hstage] at hleft
  rw [if_pos ⟨by omega, hlt⟩] at hleft
  simp only [hS, Option.elim_some]
  refine ⟨h.begun_concat .wait, ?_, ?_, ?_, ?_⟩
  · show min S l.due ≤ _
    omega
  · intro report hreport
    cases hstage.symm.trans hreport
  · intro hended
    cases hstage.symm.trans hended
  · rw [List.length_append, List.length_singleton]
    simp only [stepsLeft, hstage]
    rw [if_neg (by omega)]
    omega

/-- A punctual loop begins a cycle when it is shut down at the latest, and then only if the tick is
due at the same time. -/
theorem WindsDown.begin (hres : 0 < p.resolution) (h : WindsDown p S steps l)
    (hl : Visits p steps l) (hpunctual : l.Torn S → l.now = S)
    (hs : step? p l .begin = some l') : WindsDown p S (steps ++ [.begin]) l' := by
  obtain ⟨hstage, hdue, rfl⟩ := step?_begin.mp hs
  have hnow : l.now ≤ S := by
    by_cases hlt : l.now < S
    · exact Nat.le_of_lt hlt
    · exact Nat.le_of_eq (hpunctual ⟨hstage, Nat.le_of_not_lt hlt, hdue⟩)
  refine ⟨?_, h.now, ?_, LoopStage.noConfusion, ?_⟩
  · intro b hb
    rcases List.mem_cons.mp hb with rfl | hb
    · refine ⟨hnow, fun heq => ⟨l, hl.mono _, hstage, ?_, hdue⟩⟩
      exact Nat.le_of_eq heq.symm
    · exact h.begun_concat .begin b hb
  · intro report hreport
    cases hreport
    exact ⟨hnow, l.due, l.instruments, hdue, rfl, rfl⟩
  · have hnext := lt_nextDue hres hdue
    have hleft := h.left
    rw [List.length_append, List.length_singleton]
    simp only [stepsLeft, hstage] at hleft
    simp only [stepsLeft, beginCycle_eq]
    rw [if_neg (by omega)] at hleft
    omega

theorem WindsDown.stop (hS : p.shutdown = some S) (h : WindsDown p S steps l)
    (hs : step? p l .stop = some l') : WindsDown p S (steps ++ [.stop]) l' := by
  obtain ⟨hstage, hshut, rfl⟩ := step?_stop.mp hs
  rw [hS, Ending.reached_some, decide_eq_true_iff] at hshut
  refine ⟨h.begun_concat .stop, h.now, fun _ => LoopStage.noConfusion, fun _ => hshut, ?_⟩
  have hleft := h.left
  rw [List.length_append, List.length_singleton]
  simp only [stepsLeft, hstage] at hleft ⊢
  split at hleft <;> omega

/-- The cycle that runs when the loop is shut down returns within the grace period. -/
theorem WindsDown.store (hS : p.shutdown = some S) (h : WindsDown p S steps l)
    (hs : step? p l .store = some l') : WindsDown p S (steps ++ [.store]) l' := by
  obtain ⟨report, hstage, rfl⟩ := step?_store.mp hs
  obtain ⟨hnow, due, instruments, -, -, rfl⟩ := h.running report hstage
  have hscope : (scope p due).canceled = some S := hS
  have hbefore := (p.scraper l.now).finished_le_of_canceled hscope hnow instruments
  refine ⟨h.begun_concat .store, hbefore, fun _ => LoopStage.noConfusion, LoopStage.noConfusion,
    ?_⟩
  have hleft := h.left
  rw [List.length_append, List.length_singleton]
  simp only [stepsLeft, hstage] at hleft ⊢
  split <;> omega

/-- Every step of a punctual run brings a loop that is shut down nearer to its end, and begins no
cycle after it was shut down. -/
theorem WindsDown.step (hS : p.shutdown = some S) (hres : 0 < p.resolution)
    (h : WindsDown p S steps l) (hl : Visits p steps l) (hpunctual : l.Torn S → l.now = S)
    (hs : step? p l s = some l') : WindsDown p S (steps ++ [s]) l' := by
  cases s with
  | wait => exact h.wait hS hs
  | begin => exact h.begin hres hl hpunctual hs
  | stop => exact h.stop hS hs
  | store => exact h.store hS hs

/-- Every punctual run brings a loop that is shut down nearer to its end. -/
theorem WindsDown.run (hS : p.shutdown = some S) (hres : 0 < p.resolution)
    (hpunctual : Punctual p S steps) (hs : steps? p {} steps = some l) : WindsDown p S steps l := by
  induction steps using List.reverseRecOn generalizing l with
  | nil =>
    cases hs
    exact windsDown_start p S
  | append_singleton before s ih =>
    obtain ⟨mid, hmid, hstep⟩ := steps?_concat.mp hs
    have hvisits := visits_last hmid
    refine (ih (fun torn h => hpunctual torn (h.mono [s])) hmid).step hS hres hvisits ?_ hstep
    exact hpunctual mid (hvisits.mono [s])

/-- A loop goes on until it has ended. -/
theorem exists_step (p : LoopPlan) (hl : l.stage ≠ .ended) : ∃ s l', step? p l s = some l' := by
  cases hstage : l.stage with
  | waiting =>
    cases hshut : Ending.reached p.shutdown l.now with
    | true => exact ⟨.stop, _, step?_stop.mpr ⟨hstage, hshut, rfl⟩⟩
    | false =>
      rcases Nat.lt_or_ge l.now l.due with hlt | hdue
      · exact ⟨.wait, _, step?_wait.mpr ⟨hstage, hlt, hshut, rfl⟩⟩
      · exact ⟨.begin, _, step?_begin.mpr ⟨hstage, hdue, rfl⟩⟩
  | scraping report => exact ⟨.store, _, step?_store.mpr ⟨report, hstage, rfl⟩⟩
  | ended => exact absurd hstage hl

/-- A loop that waits and is shut down can only end, unless a tick is due as well. -/
theorem eq_stop_of_shut (hS : p.shutdown = some S) (hstage : l.stage = .waiting)
    (hshut : S ≤ l.now) (htorn : ¬ l.Torn S) (hs : step? p l s = some l') :
    s = .stop ∧ l'.stage = .ended := by
  cases s with
  | wait =>
    obtain ⟨-, -, hrunning, -⟩ := step?_wait.mp hs
    rw [hS, Ending.reached_some, decide_eq_false_iff_not] at hrunning
    exact absurd hshut hrunning
  | begin =>
    obtain ⟨-, hdue, -⟩ := step?_begin.mp hs
    exact absurd ⟨hstage, hshut, hdue⟩ htorn
  | stop =>
    obtain ⟨-, -, rfl⟩ := step?_stop.mp hs
    exact ⟨rfl, rfl⟩
  | store =>
    obtain ⟨report, hreport, -⟩ := step?_store.mp hs
    cases hstage.symm.trans hreport

/-- A loop that has ended has brought all its cycles to their end. -/
theorem Shows.of_ended {cycles : List (Batch × Option Failure)} (h : Shows p l cycles)
    (hended : l.stage = .ended) :
    l.status.Publishes cycles ∧ List.Forall₂ (fun begins cycle => ∃ due instruments,
      cycle = ((p.scraper begins).scrape (scope p due) begins instruments).outcome)
      l.begun.reverse cycles := by
  obtain ⟨starts, hbegun, hcame⟩ := h.came
  have hnone : l.runningSince = [] := by rw [runningSince, hended]
  rw [hnone, List.append_nil] at hbegun
  exact ⟨h.status, hbegun ▸ hcame⟩

/-- The clock of a loop whose clients hold no thread does not pass the tick at which it is shut
down. -/
structure Prompt (S : Nat) (l : ScrapeLoop) : Prop where
  now : l.now ≤ S
  running : ∀ report, l.stage = .scraping report → report.finished ≤ S

/-- Every step of a loop whose clients hold no thread leaves it prompt. -/
theorem Prompt.step (hS : p.shutdown = some S) (hp : p.Yields) (h : l.Prompt S)
    (hs : step? p l s = some l') : l'.Prompt S := by
  have hnow := h.now
  cases s with
  | wait =>
    obtain ⟨hstage, -, -, rfl⟩ := step?_wait.mp hs
    simp only [hS, Option.elim_some]
    refine ⟨Nat.min_le_left _ _, fun report hreport => ?_⟩
    cases hstage.symm.trans hreport
  | begin =>
    obtain ⟨-, -, rfl⟩ := step?_begin.mp hs
    refine ⟨hnow, fun report hreport => ?_⟩
    cases hreport
    obtain ⟨-, hbefore⟩ := Scraper.finished_scrape (hp l.now) (scope p l.due) l.now l.instruments
    have hscope : (scope p l.due).canceled = some S := hS
    have hlength := (p.scraper l.now).length_span_le_of_canceled hscope l.now
    show ((p.scraper l.now).scrape (scope p l.due) l.now l.instruments).finished ≤ S
    omega
  | stop =>
    obtain ⟨-, -, rfl⟩ := step?_stop.mp hs
    exact ⟨hnow, fun _ => LoopStage.noConfusion⟩
  | store =>
    obtain ⟨report, hstage, rfl⟩ := step?_store.mp hs
    exact ⟨h.running report hstage, fun _ => LoopStage.noConfusion⟩

theorem Prompt.run (hS : p.shutdown = some S) (hp : p.Yields) (hs : steps? p {} steps = some l) :
    l.Prompt S := by
  induction steps using List.reverseRecOn generalizing l with
  | nil =>
    cases hs
    exact ⟨Nat.zero_le S, fun _ => LoopStage.noConfusion⟩
  | append_singleton before s ih =>
    obtain ⟨mid, hmid, hstep⟩ := steps?_concat.mp hs
    exact (ih hmid).step hS hp hstep

/-- Where no client holds its thread, every run is punctual. -/
theorem punctual_of_yields (hS : p.shutdown = some S) (hp : p.Yields) (steps : List Step) :
    Punctual p S steps := by
  rintro torn ⟨before, -, hbefore⟩ htorn
  exact Nat.le_antisymm (Prompt.run hS hp hbefore).now htorn.shut

/-- Nothing begins after the loop was shut down. In every run in which the loop comes back to wait
before a further tick is due, no cycle begins at a later tick than that of the shutdown, and one
begins at that tick only if the loop found there that a tick was due as well. A cycle that runs then
is called off. A loop that waits after that can only end, the loop ends after finitely many steps,
and then its status shows the cycles that it has begun, each with what it came to, and so the batch
of the last of them that could list its nodes. Every run is of this kind if no client holds its
thread. -/
theorem nothing_begins_after_shutdown (hS : p.shutdown = some S) (hres : 0 < p.resolution) :
    (∀ steps l, steps? p {} steps = some l → Punctual p S steps →
      (∀ b ∈ l.begun, b ≤ S ∧ (b = S → ∃ torn, Visits p steps torn ∧ torn.Torn S)) ∧
      (∀ report, l.stage = .scraping report → S ≤ report.finished → l.now ≤ S ∧ ∃ due ≤ l.now,
        l.status.lastTick = some (Duration.ofMillis due) ∧
        (p.scraper l.now).CallsOff (scope p due) l.now S report) ∧
      (l.stage = .waiting → S ≤ l.now → ¬ l.Torn S → ∀ s l', step? p l s = some l' →
        s = .stop ∧ l'.stage = .ended) ∧
      (l.stage ≠ .ended → ∃ s l', step? p l s = some l') ∧
      steps.length ≤ 3 * S + 4 ∧
      l.now ≤ S + CyclePlan.grace ∧
      (l.stage = .ended → S ≤ l.now ∧ l.status.Publishes (finished p {} steps) ∧
        List.Forall₂ (fun begins cycle => ∃ due instruments,
          cycle = ((p.scraper begins).scrape (scope p due) begins instruments).outcome)
          l.begun.reverse (finished p {} steps))) ∧
    (p.Yields → ∀ steps l, steps? p {} steps = some l → Punctual p S steps ∧ l.now ≤ S) := by
  refine ⟨fun steps l hs hpunctual => ?_, fun hp steps l hs => ?_⟩
  · have hdown := WindsDown.run hS hres hpunctual hs
    have hshows : Shows p l (finished p {} steps) := (shows_start p).run hs
    refine ⟨hdown.begun, fun report hstage hlate => ?_, fun hstage hshut htorn s l' => ?_,
      exists_step p, ?_, hdown.now, fun hended => ⟨hdown.ended hended, hshows.of_ended hended⟩⟩
    · obtain ⟨hnow, due, instruments, hdue, htick, rfl⟩ := hdown.running report hstage
      exact ⟨hnow, due, hdue, htick, Scraper.callsOff_scrape hS hnow hlate⟩
    · exact eq_stop_of_shut hS hstage hshut htorn
    · exact Nat.le_trans (Nat.le_add_right _ _) hdown.left
  · exact ⟨punctual_of_yields hS hp steps, (Prompt.run hS hp hs).now⟩

/-- A cycle over a node that never answers is called off, and the loop ends with it. -/
theorem nothing_begins_after_shutdown_running :
    let p := LoopPlan.mk 10 (fun _ => ⟨.ok [⟨"a", [], true, none⟩],
      fun _ => ⟨none, true, false, .failed (.request "reset")⟩, 8, ⟨0, 0⟩⟩) (some 4)
    ∃ l report l', steps? p {} [.begin] = some l ∧ l.stage = .scraping report ∧
      report.finished = 4 ∧
      (∃ failure : Option AggregateFailure, report.failure = failure.map .nodes ∧
        (failure.elim [] AggregateFailure.causes).Perm [⟨"a", .canceled⟩]) ∧
      steps? p {} [.begin, .store, .stop] = some l' ∧ l'.begun = [0] ∧
      l'.status.latest = some report.batch := by
  intro p
  let report := (p.scraper 0).scrape (scope p 0) 0 {}
  have hfinished : report.finished = 4 :=
    (Scraper.finished_of_listing (s := p.scraper 0) rfl (scope p 0) 0 {}).trans rfl
  obtain ⟨m, hm, hnow, hstage, hbegun⟩ : ∃ m, steps? p {} [.begin, .store] = some m ∧
      m.now = report.finished ∧ m.stage = .waiting ∧ m.begun = [0] := ⟨_, rfl, rfl, rfl, rfl⟩
  have hshut : Ending.reached p.shutdown m.now = true := by
    rw [hnow, hfinished]
    decide
  have hrun : steps? p {} ([.begin, .store] ++ [.stop]) = some { m with stage := .ended } :=
    steps?_concat.mpr ⟨m, hm, step?_stop.mpr ⟨hstage, hshut, rfl⟩⟩
  have hp : p.Yields := fun _ _ _ _ _ => rfl
  obtain ⟨hall, hpunctual⟩ := nothing_begins_after_shutdown (p := p) rfl (by decide)
  obtain ⟨-, hcalledOff, -⟩ := hall [.begin] _ rfl (hpunctual hp [.begin] _ rfl).1
  obtain ⟨-, -, -, -, -, -, hended⟩ := hall _ _ hrun (hpunctual hp _ _ hrun).1
  obtain ⟨-, due, hdue, -, hoff⟩ := hcalledOff report rfl (Nat.le_of_eq hfinished.symm)
  obtain rfl := Nat.le_zero.mp hdue
  obtain ⟨failure, hfailure, hacc, hawaits⟩ := hoff.accounts _ rfl
  refine ⟨_, report, _, rfl, rfl, hfinished, ⟨failure, hfailure, ?_⟩, hrun, hbegun, ?_⟩
  · have hcanceled := (hawaits ⟨"a", [], true, none⟩ ⟨by decide, .inr (by decide)⟩).trans
      (if_neg fun h => Bool.false_ne_true h.1)
    have hfailures := hacc.failures
    rw [show namedNodes [⟨"a", [], true, none⟩] = [⟨"a", [], true, none⟩] from rfl,
      List.map_singleton, hcanceled] at hfailures
    exact hfailures
  · have hlisted : Status.listed report.outcome = true :=
      (Scraper.listed_scrape _ _ _ _).mpr ⟨_, rfl⟩
    obtain ⟨-, hpublishes, -⟩ := hended rfl
    have hlatest := hpublishes.latest
    rw [show finished p {} ([.begin, .store] ++ [.stop]) = [report.outcome] from rfl,
      List.filter_cons_of_pos hlisted, List.filter_nil] at hlatest
    exact hlatest

/-- How a loop goes on after its first cycle. -/
theorem exists_first_cycle (p : LoopPlan) :
    ∃ status instruments calls,
      (∀ more, steps? p {} ([.begin, .store] ++ more) =
        steps? p ⟨((p.scraper 0).scrape (scope p 0) 0 {}).finished, nextDue p.resolution 0 0, .waiting,
          status, instruments, [0], calls⟩ more) ∧
      (Status.listed ((p.scraper 0).scrape (scope p 0) 0 {}).outcome = true →
        status.latest = some ((p.scraper 0).scrape (scope p 0) 0 {}).batch) :=
  ⟨_, _, _, fun _ => rfl, fun hlisted => (Status.latest_store ..).trans (if_pos hlisted)⟩

/-- A loop that is shut down after a cycle that could not list its nodes still shows the batch of the
cycle before. One that is shut down as a tick becomes due may take the tick. One whose client held
its thread until after the shutdown begins a further cycle if a tick is due by then, and the client's
node is not reported as canceled. -/
theorem exists_shutdown_told_otherwise :
    let points := Attempt.answered ⟨⟨"", some ⟨⟨⟨1970, 1, 1, by decide⟩, 0, 0, by decide, by decide⟩,
      some 1, none⟩, some ⟨⟨⟨1970, 1, 1, by decide⟩, 0, 0, by decide, by decide⟩, some 2, none⟩⟩, []⟩
    let p := LoopPlan.mk 10 (fun t => ⟨if t = 0 then .ok [⟨"a", [], true, none⟩] else .error ["down"],
      fun _ => ⟨some 0, false, false, points⟩, 5, ⟨0, 0⟩⟩) (some 15)
    let torn := { p with shutdown := some 10 }
    let held := LoopPlan.mk 10 (fun _ => ⟨.ok [⟨"a", [], true, none⟩],
      fun _ => ⟨some 12, false, true, .failed (.request "reset")⟩, 8, ⟨0, 0⟩⟩) (some 11)
    let first := (p.scraper 0).scrape (scope p 0) 0 {}
    let last := (p.scraper 10).scrape (scope p 10) 10 first.instruments
    (∃ l, steps? p {} [.begin, .store, .wait, .begin, .store, .wait, .stop] = some l ∧
      l.stage = .ended ∧ l.begun = [10, 0] ∧ l.status.latest = some first.batch ∧
      first.batch ≠ last.batch) ∧
    (∃ l stopped begun, steps? torn {} [.begin, .store, .wait] = some l ∧
      Ending.reached torn.shutdown l.now = true ∧ step? torn l .stop = some stopped ∧
      step? torn l .begin = some begun ∧ begun.begun = [10, 0]) ∧
    ∃ l report, steps? held {} [.begin] = some l ∧ l.stage = .scraping report ∧
      (∃ failure : Option AggregateFailure, report.failure = failure.map .nodes ∧
        (failure.elim [] AggregateFailure.causes).Perm [⟨"a", .request "reset"⟩]) ∧
      ∃ l', steps? held {} [.begin, .store, .begin] = some l' ∧ l'.begun = [12, 0] := by
  intro points p torn held first last
  refine ⟨?_, ?_, ?_⟩
  · obtain ⟨c, batch, failure, -, -, hreport, hacc⟩ :=
      Scraper.scrape_of_listing (s := p.scraper 0) rfl (scope p 0) 0 {}
    have hfinished : first.finished = 0 := (congrArg CycleReport.finished hreport).trans rfl
    obtain ⟨status, instruments, calls, hrest, hlatest⟩ := exists_first_cycle p
    rw [hfinished] at hrest
    have hlisted : Status.listed first.outcome = true :=
      (Scraper.listed_scrape _ _ _ _).mpr ⟨_, rfl⟩
    refine ⟨_, (hrest [.wait, .begin, .store, .wait, .stop]).trans rfl, rfl, rfl,
      hlatest hlisted, ?_⟩
    obtain ⟨q, hq⟩ : ∃ q, (p.scraper 0).sealsTo [⟨"a", [], true, none⟩] (scope p 0) 0
        ⟨"a", [], true, none⟩ = .ok q := ⟨_, rfl⟩
    have hpoints := hacc.points
    rw [show namedNodes [⟨"a", [], true, none⟩] = [⟨"a", [], true, none⟩] from rfl,
      List.map_singleton, hq] at hpoints
    have hfirst : first.batch = batch := congrArg CycleReport.batch hreport
    intro hbatch
    rw [← hfirst, hbatch] at hpoints
    cases hpoints.length_eq
  · have hfinished : ((torn.scraper 0).scrape (scope torn 0) 0 {}).finished = 0 :=
      (Scraper.finished_of_listing (s := torn.scraper 0) rfl (scope torn 0) 0 {}).trans rfl
    obtain ⟨status, instruments, calls, hrest, -⟩ := exists_first_cycle torn
    rw [hfinished] at hrest
    exact ⟨_, _, _, (hrest [.wait]).trans rfl, rfl, rfl, rfl, rfl⟩
  · obtain ⟨c, batch, failure, -, -, hreport, hacc⟩ :=
      Scraper.scrape_of_listing (s := held.scraper 0) rfl (scope held 0) 0 {}
    let report := (held.scraper 0).scrape (scope held 0) 0 {}
    have hfinished : report.finished = 12 := (congrArg CycleReport.finished hreport).trans rfl
    obtain ⟨status, instruments, calls, hrest, -⟩ := exists_first_cycle held
    rw [hfinished] at hrest
    exact ⟨_, report, rfl, rfl, ⟨failure, congrArg CycleReport.failure hreport, hacc.failures⟩, _,
      (hrest [.begin]).trans rfl, rfl⟩

end ScrapeLoop

end NodeScrape
