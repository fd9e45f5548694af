import NodeScrape.Proofs.Cycle.Seal
import NodeScrape.Service.Response
import NodeScrape.Service.Loop
import NodeScrape.Time.Timer

/-!
# The scrape loop keeps its grid

A cycle whose clients hold no thread returns when its scope is done at the latest, and its scope is
done when the next tick is due at the latest. So the loop is always back in time: no tick is missed,
no cycle overlaps another, and at every moment the last tick is at most one resolution ago.
-/

namespace NodeScrape

namespace Scraper

/-- No client that is asked holds its thread. -/
def Yields (s : Scraper) : Prop :=
  ∀ nodes, s.listing = .ok nodes → ∀ n ∈ namedNodes nodes, (s.client n).holdsThread = false

/-- A cycle whose clients hold no thread returns when its scope is done at the latest. -/
theorem finished_scrape {s : Scraper} (hclients : s.Yields) (parent : Ending) (begins : Nat)
    (instruments : Instruments) :
    begins ≤ (s.scrape parent begins instruments).finished ∧
      (s.scrape parent begins instruments).finished ≤ begins + (s.span parent begins).length := by
  cases hlist : s.listing with
  | error chain =>
    rw [scrape, hlist]
    exact ⟨Nat.le_refl _, Nat.le_add_right _ _⟩
  | ok nodes =>
    obtain ⟨c, batch, failure, -, -, hreport, -⟩ :=
      scrape_of_listing hlist parent begins instruments
    have hsettled : ∀ m ∈ (namedNodes nodes).map fun n => (s.span parent begins).settles (s.client n),
        Ending.reached m (s.span parent begins).length = true := by
      rw [List.forall_mem_map]
      intro n hn
      simp [Span.settles, hclients nodes hlist n hn, Span.ends_le_length]
    have hseals := ((s.span parent begins).seals_le_iff _ _).mpr (.inl hsettled)
    rw [hreport]
    exact ⟨Nat.le_add_right _ _, Nat.add_le_add_left hseals _⟩

/-- A scope that ends with a tick lasts no longer than until then. -/
theorem length_span_le (s : Scraper) (begins resolution : Nat) :
    (s.span ⟨none, some (begins + resolution)⟩ begins).length ≤ resolution := by
  simp only [span, Span.length, Option.map_none, Option.elim_none, Option.elim_some]
  omega

end Scraper

theorem Status.lastTick_store (s : Status) (batch : Batch) (failure : Option Failure) :
    (s.store batch failure).lastTick = s.lastTick := by
  unfold store
  split <;> rfl

/-- The service says that it is alive exactly if the last tick was recent. -/
theorem Desk.answer_healthz (d : Desk) :
    d.answer { path := "/healthz" } = Response.alive d.status d.now d.resolution := by
  have hpath : String.ofList ("/healthz".toList.takeWhile (· ≠ '?')) = "/healthz" := by decide
  rw [answer, hpath]
  rfl

/-- No client that is ever asked holds its thread. -/
def LoopPlan.Yields (p : LoopPlan) : Prop := ∀ t, (p.scraper t).Yields

/-- Ticks come, the loop is not shut down, and no client that is ever asked holds its thread. -/
structure LoopPlan.Undisturbed (p : LoopPlan) : Prop where
  resolution : 0 < p.resolution
  shutdown : p.shutdown = none
  clients : p.Yields

namespace ScrapeLoop

/-- The loop after steps, if they can be taken one after another. -/
def steps? (p : LoopPlan) (l : ScrapeLoop) : List Step → Option ScrapeLoop
  | [] => some l
  | s :: rest => (step? p l s).bind (steps? p · rest)

/-- The number of cycles that run. -/
def running (l : ScrapeLoop) : Nat :=
  match l.stage with
  | .scraping _ => 1
  | _ => 0

/-- The loop is on its grid. -/
structure OnGrid (p : LoopPlan) (l : ScrapeLoop) : Prop where
  /-- Cycles began at all ticks of the grid, one after another. -/
  begun : l.begun = ((List.range l.begun.length).map (· * p.resolution)).reverse
  /-- The next tick of the grid is the first at which no cycle began. -/
  due : l.due = l.begun.length * p.resolution
  /-- The last tick that was recorded is that at which the last cycle began. -/
  lastTick : l.status.lastTick = l.begun.head?.map Duration.ofMillis
  since : ∀ tick, l.begun.head? = some tick → tick ≤ l.now
  /-- The next tick has not passed, and a cycle that runs comes to its end before it has. -/
  inTime : match l.stage with
    | .waiting => l.now ≤ l.due
    | .scraping report => l.begun.head? = some l.now ∧ l.now ≤ report.finished ∧
        report.finished ≤ l.due ∧
        ∃ instruments, report = (p.scraper l.now).scrape (scope p l.now) l.now instruments
    | .ended => False

variable {p : LoopPlan} {l l' : ScrapeLoop} {s : Step} {t : Nat} {now : Instant}

/-- All that a tick changes of the loop. -/
theorem beginCycle_eq (p : LoopPlan) (l : ScrapeLoop) :
    beginCycle p l = { l with
      due := nextDue p.resolution l.due l.now
      stage := .scraping ((p.scraper l.now).scrape (scope p l.due) l.now l.instruments)
      status := l.status.recordTick (Duration.ofMillis l.due)
      begun := l.now :: l.begun
      calls := l.calls +
        ((p.scraper l.now).scrape (scope p l.due) l.now l.instruments).calls } := rfl

theorem step?_wait : step? p l .wait = some l' ↔ l.stage = .waiting ∧ l.now < l.due ∧
    Ending.reached p.shutdown l.now = false ∧
    l' = { l with now := p.shutdown.elim l.due (min · l.due) } := by
  simp only [step?, Option.ite_none_right_eq_some, Option.some.injEq, Bool.and_eq_true,
    decide_eq_true_iff, Bool.not_eq_true', and_assoc, eq_comm (a := l')]

theorem step?_begin : step? p l .begin = some l' ↔ l.stage = .waiting ∧ l.due ≤ l.now ∧
    l' = beginCycle p l := by
  simp only [step?, Option.ite_none_right_eq_some, Option.some.injEq, Bool.and_eq_true,
    decide_eq_true_iff, and_assoc, eq_comm (a := l')]

theorem step?_stop : step? p l .stop = some l' ↔ l.stage = .waiting ∧
    Ending.reached p.shutdown l.now = true ∧ l' = { l with stage := .ended } := by
  simp only [step?, Option.ite_none_right_eq_some, Option.some.injEq, Bool.and_eq_true,
    decide_eq_true_iff, and_assoc, eq_comm (a := l')]

theorem step?_store : step? p l .store = some l' ↔ ∃ report, l.stage = .scraping report ∧
    l' = { l with
      now := report.finished
      stage := .waiting
      status := l.status.store report.batch report.failure
      instruments := report.instruments } := by
  cases hstage : l.stage <;> simp [step?, hstage, eq_comm (a := l')]

theorem steps?_cons {rest : List Step} :
    steps? p l (s :: rest) = some l' ↔
      ∃ next, step? p l s = some next ∧ steps? p next rest = some l' :=
  Option.bind_eq_some_iff

theorem onGrid_start (p : LoopPlan) : OnGrid p {} :=
  ⟨rfl, (Nat.zero_mul _).symm, rfl, nofun, Nat.le_refl 0⟩

/-- The next tick is due one resolution after the last one. -/
theorem OnGrid.due_eq (h : OnGrid p l) {tick : Nat} (htick : l.begun.head? = some tick) :
    l.due = tick + p.resolution := by
  obtain ⟨rest, hbegun⟩ := List.head?_eq_some_iff.mp htick
  have hall := h.begun
  rw [hbegun, List.length_cons, List.range_succ, List.map_append, List.reverse_append] at hall
  obtain rfl : tick = rest.length * p.resolution := (List.cons.inj hall).1
  rw [h.due, hbegun, List.length_cons, Nat.succ_mul]

/-- Taking a tick that is due just now begins a cycle that comes to its end in time. -/
theorem OnGrid.begin (hp : p.Undisturbed) (h : OnGrid p l) (hnow : l.now = l.due) :
    OnGrid p (beginCycle p l) := by
  have hnext : nextDue p.resolution l.due l.now = l.due + p.resolution := by
    rw [nextDue, if_neg (by omega)]
  have hscope : scope p l.now = ⟨none, some (l.now + p.resolution)⟩ := by
    rw [scope, hp.shutdown]
  obtain ⟨hafter, hbefore⟩ := Scraper.finished_scrape (hp.clients l.now) (scope p l.now) l.now
    l.instruments
  have hlength := (p.scraper l.now).length_span_le l.now p.resolution
  rw [← hscope] at hlength
  rw [beginCycle_eq, hnext]
  refine ⟨?_, ?_, ?_, ?_, rfl, ?_, ?_, l.instruments, ?_⟩
  · rw [List.length_cons, List.range_succ, List.map_append, List.reverse_append, ← h.begun, hnow,
      h.due]
    rfl
  · rw [List.length_cons, Nat.succ_mul, ← h.due]
  · rw [hnow]
    rfl
  · exact fun tick htick => Nat.le_of_eq (Option.some.inj htick).symm
  · rw [← hnow]
    exact hafter
  · rw [← hnow]
    exact Nat.le_trans hbefore (Nat.add_le_add_left hlength _)
  · rw [← hnow]

/-- Every step leaves the loop on its grid. -/
theorem OnGrid.step (hp : p.Undisturbed) (h : OnGrid p l) (hs : step? p l s = some l') :
    OnGrid p l' := by
  have htime := h.inTime
  cases s with
  | wait =>
    obtain ⟨hstage, hlt, -, rfl⟩ := step?_wait.mp hs
    rw [hp.shutdown, Option.elim_none]
    refine ⟨h.begun, h.due, h.lastTick, fun tick htick => ?_, ?_⟩
    · exact Nat.le_trans (h.since tick htick) (Nat.le_of_lt hlt)
    · simp only [hstage]
      exact Nat.le_refl _
  | begin =>
    obtain ⟨hstage, hle, rfl⟩ := step?_begin.mp hs
    simp only [hstage] at htime
    exact h.begin hp (Nat.le_antisymm htime hle)
  | stop =>
    obtain ⟨-, hreached, -⟩ := step?_stop.mp hs
    rw [hp.shutdown] at hreached
    cases hreached
  | store =>
    obtain ⟨report, hstage, rfl⟩ := step?_store.mp hs
    simp only [hstage] at htime
    obtain ⟨hhead, hafter, hbefore, -⟩ := htime
    refine ⟨h.begun, h.due, ?_, fun tick htick => ?_, hbefore⟩
    · exact (Status.lastTick_store _ _ _).trans h.lastTick
    · obtain rfl : l.now = tick := Option.some.inj (hhead.symm.trans htick)
      exact hafter

/-- A cycle begins only after the one before it was stored. -/
theorem running_step (hp : p.Undisturbed) (hs : step? p l s = some l') :
    l'.begun.length = l.begun.length + [s].count .begin ∧
      l.running + [s].count .begin = l'.running + [s].count .store := by
  cases s with
  | wait =>
    obtain ⟨hstage, -, -, rfl⟩ := step?_wait.mp hs
    exact ⟨rfl, rfl⟩
  | begin =>
    obtain ⟨hstage, -, rfl⟩ := step?_begin.mp hs
    refine ⟨rfl, ?_⟩
    rw [running, hstage]
    rfl
  | stop =>
    obtain ⟨-, hreached, -⟩ := step?_stop.mp hs
    rw [hp.shutdown] at hreached
    cases hreached
  | store =>
    obtain ⟨report, hstage, rfl⟩ := step?_store.mp hs
    refine ⟨rfl, ?_⟩
    rw [running, hstage]
    rfl

/-- Every run leaves the loop on its grid, has begun as many cycles as it has taken ticks, and has
stored all of them but the one that runs. -/
theorem OnGrid.run (hp : p.Undisturbed) {steps : List Step} (h : OnGrid p l)
    (hs : steps? p l steps = some l') :
    OnGrid p l' ∧ l'.begun.length = l.begun.length + steps.count .begin ∧
      l.running + steps.count .begin = l'.running + steps.count .store := by
  induction steps generalizing l with
  | nil =>
    cases hs
    exact ⟨h, rfl, rfl⟩
  | cons s rest ih =>
    obtain ⟨next, hnext, hrest⟩ := steps?_cons.mp hs
    obtain ⟨hbegun, hrunning⟩ := running_step hp hnext
    obtain ⟨hgrid, hbegun', hrunning'⟩ := ih (h.step hp hnext) hrest
    have hsplit (a : Step) : (s :: rest).count a = [s].count a + rest.count a := by
      rw [← List.count_append]
      rfl
    rw [hsplit, hsplit]
    exact ⟨hgrid, by omega, by omega⟩

/-- The loop always goes on, and does so when the next tick is due at the latest. -/
theorem OnGrid.next?_eq_some (hp : p.Undisturbed) (h : OnGrid p l) :
    ∃ u s, next? p l = some (u, s) ∧ (step? p l s).isSome ∧ l.now ≤ u ∧ u ≤ l.due := by
  have htime := h.inTime
  cases hstage : l.stage with
  | waiting =>
    simp only [hstage] at htime
    have hrunning : Ending.reached p.shutdown l.now = false := by rw [hp.shutdown]; rfl
    by_cases hdue : l.due ≤ l.now
    · refine ⟨l.now, .begin, ?_, ?_, Nat.le_refl _, htime⟩
      · simp [next?, hstage, hrunning, hdue]
      · simp [step?, hstage, hdue]
    · refine ⟨l.due, .wait, ?_, ?_, htime, Nat.le_refl _⟩
      · simp [next?, hstage, hp.shutdown, hdue]
      · simp [step?, hstage, hp.shutdown, Nat.lt_of_not_le hdue]
  | scraping report =>
    simp only [hstage] at htime
    obtain ⟨-, hafter, hbefore, -⟩ := htime
    exact ⟨report.finished, .store, by simp [next?, hstage], by simp [step?, hstage], hafter,
      hbefore⟩
  | ended =>
    simp only [hstage] at htime

/-- Until the next tick is due the last one is recent, and the service says that it is alive. -/
theorem OnGrid.timely (h : OnGrid p l) (hbegun : l.begun ≠ [])
    (hnow : now ≤ Duration.ofMillis l.due) :
    l.status.isTimely now (Duration.ofMillis p.resolution) = true ∧
      Desk.answer ⟨l.instruments, l.status, now, Duration.ofMillis p.resolution⟩
        { path := "/healthz" } = Response.text 200 "ok" := by
  have htimely : l.status.isTimely now (Duration.ofMillis p.resolution) = true := by
    obtain ⟨tick, rest, hcons⟩ := List.exists_cons_of_ne_nil hbegun
    have hhead : l.begun.head? = some tick := by rw [hcons]; rfl
    rw [h.due_eq hhead] at hnow
    have hwait : now - Duration.ofMillis tick ≤
        Status.longestWait (Duration.ofMillis p.resolution) := by
      have hsince : now - Duration.ofMillis tick ≤ Duration.ofMillis p.resolution :=
        Nat.sub_le_iff_le_add'.mpr (Nat.add_mul .. ▸ hnow)
      exact Nat.le_trans hsince (Nat.le_add_right _ _)
    simp [Status.isTimely, h.lastTick, hhead, hwait]
  refine ⟨htimely, ?_⟩
  rw [Desk.answer_healthz, Response.alive, htimely, if_pos rfl]

/-- How many steps the loop may still take up to a time. -/
def ahead (t : Nat) (l : ScrapeLoop) : Nat :=
  3 * (t + 1 - l.begun.length) + match l.stage with
    | .waiting => if l.due ≤ l.now then 1 else 2
    | .scraping _ => 3
    | .ended => 0

/-- A step up to a time brings the loop nearer to it. -/
theorem OnGrid.ahead_step (hp : p.Undisturbed) (h : OnGrid p l) {u : Nat} (hut : u ≤ t)
    (hnext : next? p l = some (u, s)) (hs : step? p l s = some l') :
    l'.now ≤ t ∧ l'.ahead t < l.ahead t := by
  have htime := h.inTime
  cases s with
  | wait =>
    obtain ⟨hstage, hlt, hrunning, rfl⟩ := step?_wait.mp hs
    have hdue : ¬ l.due ≤ l.now := Nat.not_le.mpr hlt
    have hu : l.due = u := by
      simpa [next?, hstage, hp.shutdown, hdue] using hnext
    rw [hp.shutdown, Option.elim_none]
    refine ⟨hu ▸ hut, ?_⟩
    simp [ahead, hstage, hdue]
  | begin =>
    obtain ⟨hstage, hle, rfl⟩ := step?_begin.mp hs
    have hu : l.now = u := by
      simpa [next?, hstage, hp.shutdown, hle] using hnext
    have hroom : l.begun.length ≤ t := by
      have hmul := Nat.le_mul_of_pos_right l.begun.length hp.resolution
      rw [← h.due] at hmul
      omega
    refine ⟨hu ▸ hut, ?_⟩
    simp only [ahead, beginCycle_eq, hstage, if_pos hle, List.length_cons]
    omega
  | stop =>
    obtain ⟨-, hreached, -⟩ := step?_stop.mp hs
    rw [hp.shutdown] at hreached
    cases hreached
  | store =>
    obtain ⟨report, hstage, rfl⟩ := step?_store.mp hs
    have hu : report.finished = u := by
      simpa [next?, hstage] using hnext
    refine ⟨hu ▸ hut, ?_⟩
    simp only [ahead, hstage]
    split <;> omega

/-- With steps enough the loop comes to a time and goes on only after it. -/
theorem OnGrid.runUntil (hp : p.Undisturbed) {fuel : Nat} (h : OnGrid p l) (hnow : l.now ≤ t)
    (hfuel : l.ahead t ≤ fuel) :
    OnGrid p (runUntil p t fuel l) ∧ (runUntil p t fuel l).now ≤ t ∧
      ∃ u s, next? p (ScrapeLoop.runUntil p t fuel l) = some (u, s) ∧ t < u := by
  induction fuel generalizing l with
  | zero =>
    have htime := h.inTime
    unfold ahead at hfuel
    cases hstage : l.stage with
    | waiting =>
      simp only [hstage] at hfuel
      split at hfuel <;> omega
    | scraping report =>
      simp only [hstage] at hfuel
      omega
    | ended => simp only [hstage] at htime
  | succ fuel ih =>
    obtain ⟨u, s, hnext, hsome, -, -⟩ := h.next?_eq_some hp
    obtain ⟨l', hs⟩ := Option.isSome_iff_exists.mp hsome
    simp only [ScrapeLoop.runUntil, hnext, hs, Option.getD_some]
    by_cases hut : u ≤ t
    · obtain ⟨hnow', hless⟩ := h.ahead_step hp hut hnext hs
      rw [if_pos hut]
      exact ih (h.step hp hs) hnow' (by omega)
    · rw [if_neg hut]
      exact ⟨h, hnow, u, s, hnext, Nat.lt_of_not_le hut⟩

/-- At every time the loop is on its grid, and a cycle has begun at each tick up to that time. -/
theorem onGrid_atTime (hp : p.Undisturbed) (t : Nat) :
    OnGrid p (atTime p t) ∧ (atTime p t).begun.length = t / p.resolution + 1 ∧
      t < (atTime p t).due := by
  have hfuel : ahead t {} ≤ 3 * (t + 2) := by
    have hahead : ahead t {} = 3 * (t + 1) + 1 := rfl
    omega
  obtain ⟨hgrid, hnow, u, s, hnext, hlt⟩ := (onGrid_start p).runUntil hp (Nat.zero_le t) hfuel
  rw [← atTime] at hgrid hnow hnext
  obtain ⟨u', s', hnext', -, -, hle⟩ := hgrid.next?_eq_some hp
  obtain ⟨rfl, rfl⟩ : u = u' ∧ s = s' := by simpa using hnext.symm.trans hnext'
  have hdue : t < (atTime p t).due := Nat.lt_of_lt_of_le hlt hle
  refine ⟨hgrid, ?_, hdue⟩
  have hpos : (atTime p t).begun ≠ [] := by
    intro hnil
    rw [hgrid.due, hnil, List.length_nil, Nat.zero_mul] at hdue
    exact Nat.not_lt_zero t hdue
  obtain ⟨tick, rest, hcons⟩ := List.exists_cons_of_ne_nil hpos
  have hhead : (atTime p t).begun.head? = some tick := by rw [hcons]; rfl
  have htick : tick ≤ t := Nat.le_trans (hgrid.since tick hhead) hnow
  have hmul : tick = rest.length * p.resolution := by
    have hsum := (hgrid.due_eq hhead).symm.trans hgrid.due
    rw [hcons, List.length_cons, Nat.succ_mul] at hsum
    exact Nat.add_right_cancel hsum
  rw [hgrid.due, hcons, List.length_cons] at hdue
  rw [hcons, List.length_cons, Nat.add_right_cancel_iff]
  exact (Nat.div_eq_of_lt_le (hmul ▸ htick) hdue).symm

/-- As long as the loop is not shut down and no client holds its thread, the loop keeps its grid,
whatever its nodes and their listing do and whichever of resolution and timeout is longer. In every
run of its steps cycles have begun exactly at the ticks of the grid up to now, one after another,
each one runs until the next tick at the latest and is stored before the next one begins; the loop
is never stuck; and from the first tick on the last one is always recent and the service says that
it is alive. At every moment a cycle has begun at each tick up to then. The scope of a cycle ends
with its timeout or when the next tick is due, whichever comes first, and the cycle returns. -/
theorem keeps_grid (hp : p.Undisturbed) :
    (∀ steps l, steps? p {} steps = some l → OnGrid p l ∧
      l.begun.length = steps.count .begin ∧ steps.count .begin = l.running + steps.count .store ∧
      ∃ u s, next? p l = some (u, s) ∧ (step? p l s).isSome ∧ l.now ≤ u ∧ u ≤ l.due ∧
        (l.begun ≠ [] → ∀ now ≤ Duration.ofMillis u,
          l.status.isTimely now (Duration.ofMillis p.resolution) = true ∧
          Desk.answer ⟨l.instruments, l.status, now, Duration.ofMillis p.resolution⟩
            { path := "/healthz" } = Response.text 200 "ok")) ∧
    (∀ now l, l = atTime p (Timer.passed now) → OnGrid p l ∧
      l.begun.length = Timer.passed now / p.resolution + 1 ∧
      l.status.isTimely now (Duration.ofMillis p.resolution) = true ∧
      Desk.answer ⟨l.instruments, l.status, now, Duration.ofMillis p.resolution⟩
        { path := "/healthz" } = Response.text 200 "ok") ∧
    ∀ k s, s = p.scraper (k * p.resolution) →
      s.ending (scope p (k * p.resolution)) (k * p.resolution) =
        ⟨none, some (min ((k + 1) * p.resolution) (k * p.resolution + s.timeout))⟩ ∧
      ∀ nodes, s.listing = .ok nodes → ∀ instruments, ∃ c,
        (s.plan nodes (scope p (k * p.resolution)) (k * p.resolution)).run instruments =
          some ((s.scrape (scope p (k * p.resolution)) (k * p.resolution) instruments).finished, c) ∧
        c.result?.isSome := by
  refine ⟨fun steps l hs => ?_, ?_, ?_⟩
  · obtain ⟨hgrid, hbegun, hrunning⟩ := (onGrid_start p).run hp hs
    obtain ⟨u, s, hnext, hsome, hnow, hdue⟩ := hgrid.next?_eq_some hp
    refine ⟨hgrid, hbegun.trans (Nat.zero_add _), (Nat.zero_add _).symm.trans hrunning, u, s, hnext,
      hsome, hnow, hdue, fun hne now hle => hgrid.timely hne ?_⟩
    exact Nat.le_trans hle (Nat.mul_le_mul_right _ hdue)
  · rintro now l rfl
    obtain ⟨hgrid, hlength, hdue⟩ := onGrid_atTime hp (Timer.passed now)
    have hne : (atTime p (Timer.passed now)).begun ≠ [] := by
      intro hnil
      rw [hnil] at hlength
      cases hlength
    refine ⟨hgrid, hlength, hgrid.timely hne ?_⟩
    exact Nat.le_of_lt ((Nat.div_lt_iff_lt_mul (by decide)).mp hdue)
  · rintro k s rfl
    refine ⟨?_, fun nodes hlist instruments => ?_⟩
    · rw [Scraper.ending, scope, hp.shutdown, Nat.succ_mul]
      rfl
    · obtain ⟨c, batch, failure, hrun, hresult, hreport, -⟩ :=
        Scraper.scrape_of_listing hlist (scope p (k * p.resolution)) (k * p.resolution) instruments
      exact ⟨c, by rw [hrun, hreport], by rw [hresult]; rfl⟩

/-- A node never answers, and cycles might take longer than the time between two ticks. -/
theorem keeps_grid_slow :
    let p := LoopPlan.mk 10 (fun _ => ⟨.ok [⟨"a", [], true, none⟩],
      fun _ => ⟨none, true, false, .failed (.request "reset")⟩, 25, ⟨0, 0⟩⟩) none
    p.Undisturbed ∧ (atTime p (Timer.passed 25000000)).begun.length = 3 ∧
      (atTime p (Timer.passed 25000000)).status.isTimely 25000000 (Duration.ofMillis 10) = true := by
  intro p
  have hp : p.Undisturbed := ⟨by decide, rfl, fun _ _ _ _ _ => rfl⟩
  obtain ⟨-, hlength, htimely, -⟩ := (keeps_grid hp).2.1 25000000 _ rfl
  have hticks : Timer.passed 25000000 / 10 + 1 = 3 := by decide
  exact ⟨hp, hlength.trans hticks, htimely⟩

end ScrapeLoop

end NodeScrape
