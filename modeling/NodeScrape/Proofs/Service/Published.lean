import Mathlib.Data.List.Forall2
import NodeScrape.Proofs.Service.Grid

/-!
# What the status publishes

A status is told when a cycle is due and what a cycle came to. Whatever it is told, it shows the
batch of the last cycle that could list its nodes and the complaint of the last cycle of all; a
cycle that still runs shows in neither.
-/

namespace NodeScrape

namespace Status

/-- What a status is told. -/
inductive Event where
  /-- A cycle is due. -/
  | due (time : Instant)
  /-- A cycle is over. -/
  | finished (batch : Batch) (failure : Option Failure)

/-- The status once it was told something. -/
def tell (s : Status) : Event → Status
  | .due time => s.recordTick time
  | .finished batch failure => s.store batch failure

/-- The cycle that is over, if that is what a status is told. -/
def Event.cycle? : Event → Option (Batch × Option Failure)
  | .due _ => none
  | .finished batch failure => some (batch, failure)

/-- Whether a cycle could list its nodes. -/
def listed (cycle : Batch × Option Failure) : Bool := !cycle.2.any Failure.isListing

/-- What a cycle has to complain about. -/
def complaint? (cycle : Batch × Option Failure) : Option String := cycle.2.map Failure.message

/-- A status shows finished cycles, given in the order in which they ended. -/
structure Publishes (s : Status) (cycles : List (Batch × Option Failure)) : Prop where
  /-- The batch is that of the last cycle that could list its nodes. -/
  latest : s.latest = ((cycles.filter listed).getLast?).map Prod.fst
  /-- The complaint is that of the last cycle. -/
  lastError : s.lastError = cycles.getLast?.bind complaint?
  /-- The scraper is ready exactly if some cycle could list its nodes. -/
  isReady : s.isReady = true ↔ ∃ cycle ∈ cycles, listed cycle = true

variable {s s' : Status} {cycles more : List (Batch × Option Failure)}

theorem publishes_nil : Publishes {} [] := by
  refine ⟨rfl, rfl, ?_⟩
  constructor
  · intro h
    cases h
  · rintro ⟨cycle, hmem, -⟩
    cases hmem

/-- That a cycle is due shows neither in the batch nor in the complaint. -/
theorem Publishes.recordTick (h : s.Publishes cycles) (time : Instant) :
    (s.recordTick time).Publishes cycles :=
  ⟨h.latest, h.lastError, h.isReady⟩

/-- The batch of a cycle that could list its nodes takes the place of the one before it. -/
theorem latest_store (s : Status) (batch : Batch) (failure : Option Failure) :
    (s.store batch failure).latest = if listed (batch, failure) then some batch else s.latest := by
  unfold store listed
  cases failure.any Failure.isListing <;> rfl

theorem lastError_store (s : Status) (batch : Batch) (failure : Option Failure) :
    (s.store batch failure).lastError = complaint? (batch, failure) := by
  unfold store complaint?
  cases failure.any Failure.isListing <;> rfl

/-- What a cycle came to is stored whole, and only if it could list its nodes is its batch. -/
theorem Publishes.store (h : s.Publishes cycles) (batch : Batch) (failure : Option Failure) :
    (s.store batch failure).Publishes (cycles ++ [(batch, failure)]) := by
  have hlatest := latest_store s batch failure
  refine ⟨?_, ?_, ?_⟩
  · rw [hlatest, List.filter_append]
    by_cases hlisted : listed (batch, failure) = true
    · rw [if_pos hlisted, List.filter_cons_of_pos hlisted, List.filter_nil, List.getLast?_concat,
        Option.map_some]
    · rw [if_neg hlisted, List.filter_cons_of_neg hlisted, List.filter_nil, List.append_nil]
      exact h.latest
  · rw [lastError_store, List.getLast?_concat, Option.bind_some]
  · rw [Status.isReady, hlatest]
    by_cases hlisted : listed (batch, failure) = true
    · rw [if_pos hlisted]
      constructor
      · intro _
        exact ⟨(batch, failure), List.mem_append_right _ List.mem_cons_self, hlisted⟩
      · intro _
        rfl
    · rw [if_neg hlisted]
      constructor
      · intro hready
        obtain ⟨cycle, hmem, hcycle⟩ := h.isReady.mp hready
        exact ⟨cycle, List.mem_append_left _ hmem, hcycle⟩
      · rintro ⟨cycle, hmem, hcycle⟩
        rcases List.mem_append.mp hmem with hmem | hmem
        · exact h.isReady.mpr ⟨cycle, hmem, hcycle⟩
        · obtain rfl := List.mem_singleton.mp hmem
          exact absurd hcycle hlisted

theorem Publishes.tell (h : s.Publishes cycles) (e : Event) :
    (s.tell e).Publishes (cycles ++ e.cycle?.toList) := by
  cases e with
  | due time =>
    have hnone : cycles ++ (Event.due time).cycle?.toList = cycles := List.append_nil cycles
    rw [hnone]
    exact h.recordTick time
  | finished batch failure => exact h.store batch failure

/-- Whatever a status is told, it shows the cycles that are over. -/
theorem Publishes.foldl (h : s.Publishes cycles) (events : List Event) :
    (events.foldl Status.tell s).Publishes (cycles ++ events.filterMap Event.cycle?) := by
  induction events generalizing s cycles with
  | nil =>
    rw [List.filterMap_nil, List.append_nil]
    exact h
  | cons e rest ih =>
    have hsplit : (e :: rest).filterMap Event.cycle? =
        e.cycle?.toList ++ rest.filterMap Event.cycle? := by
      cases e <;> rfl
    rw [hsplit, ← List.append_assoc]
    exact ih (h.tell e)

/-- Further cycles do not take readiness back. -/
theorem Publishes.isReady_append (h : s.Publishes cycles) (h' : s'.Publishes (cycles ++ more))
    (hready : s.isReady = true) : s'.isReady = true := by
  obtain ⟨cycle, hmem, hlisted⟩ := h.isReady.mp hready
  exact h'.isReady.mpr ⟨cycle, List.mem_append_left _ hmem, hlisted⟩

end Status

/-- The service says that it is ready exactly if it is, and tells the last complaint until then. -/
theorem Desk.answer_readyz (d : Desk) :
    d.answer { path := "/readyz" } =
      if d.status.isReady then Response.text 200 "ok"
      else Response.text 503 ("no metrics collected yet" ++
        d.status.lastError.elim "" (", last error: " ++ ·)) := by
  have hpath : String.ofList ("/readyz".toList.takeWhile (· ≠ '?')) = "/readyz" := by decide
  have hpage : d.page? "/readyz" = some (.ready d.status) := rfl
  rw [answer, hpath, hpage]
  show Response.ready d.status = _
  unfold Response.ready
  cases d.status.lastError with
  | none => rfl
  | some error =>
    have htext : "no metrics collected yet, last error: " ++ error =
        "no metrics collected yet" ++ (", last error: " ++ error) := by
      rw [← String.append_assoc]
      rfl
    simp only [htext]
    rfl

/-- What the service says of its readiness is read off the cycles that are over: it is ready as soon
as one of them could list its nodes, and until then it tells the complaint of the last one. -/
theorem Status.Publishes.answer_readyz {s : Status} {cycles : List (Batch × Option Failure)}
    (h : s.Publishes cycles) (instruments : Instruments) (now : Instant) (resolution : Duration) :
    Desk.answer ⟨instruments, s, now, resolution⟩ { path := "/readyz" } =
      if cycles.any Status.listed then Response.text 200 "ok"
      else Response.text 503 ("no metrics collected yet" ++
        (cycles.getLast?.bind Status.complaint?).elim "" (", last error: " ++ ·)) := by
  have hready : s.isReady = cycles.any Status.listed := by
    rw [Bool.eq_iff_iff, h.isReady, List.any_eq_true]
  rw [Desk.answer_readyz, hready, h.lastError]

/-- What a cycle hands over. -/
def CycleReport.outcome (r : CycleReport) : Batch × Option Failure := (r.batch, r.failure)

/-- A cycle could list its nodes exactly if its listing says so. -/
theorem Scraper.listed_scrape (s : Scraper) (parent : Ending) (begins : Nat)
    (instruments : Instruments) :
    Status.listed (s.scrape parent begins instruments).outcome = true ↔
      ∃ nodes, s.listing = .ok nodes := by
  cases hlist : s.listing with
  | error chain =>
    rw [scrape, hlist]
    constructor
    · intro h
      cases h
    · rintro ⟨nodes, h⟩
      cases h
  | ok nodes =>
    obtain ⟨c, batch, failure, -, -, hreport, -⟩ := scrape_of_listing hlist parent begins instruments
    constructor
    · intro _
      exact ⟨nodes, rfl⟩
    · intro _
      rw [hreport, Status.listed, CycleReport.outcome]
      cases failure <;> rfl

namespace ScrapeLoop

variable {p : LoopPlan} {l l' l'' : ScrapeLoop} {s : Step} {steps more : List Step}
  {cycles : List (Batch × Option Failure)}

/-- The cycle that a step brings to its end. -/
def ended? (l : ScrapeLoop) : Step → Option (Batch × Option Failure)
  | .store => match l.stage with
    | .scraping report => some report.outcome
    | _ => none
  | _ => none

/-- The cycles that steps of the loop bring to their end, in order. -/
def finished (p : LoopPlan) (l : ScrapeLoop) : List Step → List (Batch × Option Failure)
  | [] => []
  | s :: rest => (l.ended? s).toList ++ finished p ((step? p l s).getD l) rest

/-- When the cycle began that runs. -/
def runningSince (l : ScrapeLoop) : List Nat :=
  match l.stage with
  | .scraping _ => [l.now]
  | _ => []

/-- The status of the loop shows the cycles that are over, and these are, in order, the cycles that
began but the one that runs. -/
structure Shows (p : LoopPlan) (l : ScrapeLoop) (cycles : List (Batch × Option Failure)) :
    Prop where
  status : l.status.Publishes cycles
  /-- The cycle that runs will come to what the scraper of its beginning makes of it. -/
  runs : ∀ report, l.stage = .scraping report →
    ∃ due instruments, report = (p.scraper l.now).scrape (scope p due) l.now instruments
  /-- So did the cycles that are over. -/
  came : ∃ starts, l.begun.reverse = starts ++ l.runningSince ∧
    List.Forall₂ (fun begins cycle => ∃ due instruments,
      cycle = ((p.scraper begins).scrape (scope p due) begins instruments).outcome) starts cycles

theorem shows_start (p : LoopPlan) : Shows p {} [] :=
  ⟨Status.publishes_nil, nofun, [], rfl, .nil⟩

/-- A tick begins a cycle that shows in nothing but the time of the tick. -/
theorem Shows.begin (h : Shows p l cycles) (hstage : l.stage = .waiting) :
    Shows p (beginCycle p l) cycles := by
  obtain ⟨starts, hbegun, hcame⟩ := h.came
  have hnone : l.runningSince = [] := by rw [runningSince, hstage]
  refine ⟨h.status.recordTick _, ?_, starts, ?_, hcame⟩
  · intro report hreport
    exact ⟨l.due, l.instruments, (LoopStage.scraping.inj hreport).symm⟩
  · show (l.now :: l.begun).reverse = starts ++ [l.now]
    rw [List.reverse_cons, hbegun, hnone, List.append_nil]

/-- A cycle that comes to its end shows from then on. -/
theorem Shows.store (h : Shows p l cycles) {report : CycleReport}
    (hstage : l.stage = .scraping report) :
    Shows p { l with
        now := report.finished
        stage := .waiting
        status := l.status.store report.batch report.failure
        instruments := report.instruments } (cycles ++ [report.outcome]) := by
  obtain ⟨starts, hbegun, hcame⟩ := h.came
  have hsince : l.runningSince = [l.now] := by rw [runningSince, hstage]
  obtain ⟨due, instruments, hreport⟩ := h.runs report hstage
  refine ⟨h.status.store report.batch report.failure, nofun, starts ++ [l.now], ?_, ?_⟩
  · rw [hbegun, hsince]
    exact (List.append_nil _).symm
  · exact List.rel_append hcame (.cons ⟨due, instruments, by rw [← hreport]⟩ .nil)

/-- Every step leaves the loop with a status that shows what is over. -/
theorem Shows.step (h : Shows p l cycles) (hs : step? p l s = some l') :
    Shows p l' (cycles ++ (l.ended? s).toList) := by
  -- Only a cycle that is stored comes to its end.
  have hnone (hended : l.ended? s = none) : cycles ++ (l.ended? s).toList = cycles := by
    rw [hended, Option.toList_none, List.append_nil]
  obtain ⟨starts, hbegun, hcame⟩ := h.came
  cases s with
  | wait =>
    obtain ⟨hstage, -, -, rfl⟩ := step?_wait.mp hs
    rw [hnone rfl]
    refine ⟨h.status, fun report hreport => ?_, starts, hbegun.trans ?_, hcame⟩
    · rw [hstage] at hreport
      cases hreport
    · simp only [runningSince, hstage]
  | begin =>
    obtain ⟨hstage, -, rfl⟩ := step?_begin.mp hs
    rw [hnone rfl]
    exact h.begin hstage
  | stop =>
    obtain ⟨hstage, -, rfl⟩ := step?_stop.mp hs
    rw [hnone rfl]
    refine ⟨h.status, nofun, starts, hbegun.trans ?_, hcame⟩
    simp only [runningSince, hstage]
  | store =>
    obtain ⟨report, hstage, rfl⟩ := step?_store.mp hs
    have hended : l.ended? .store = some report.outcome := by simp only [ended?, hstage]
    rw [hended]
    exact h.store hstage

/-- Every run leaves the loop with a status that shows what is over. -/
theorem Shows.run (h : Shows p l cycles) (hs : steps? p l steps = some l') :
    Shows p l' (cycles ++ finished p l steps) := by
  induction steps generalizing l cycles with
  | nil =>
    cases hs
    rw [finished, List.append_nil]
    exact h
  | cons s rest ih =>
    obtain ⟨next, hnext, hrest⟩ := steps?_cons.mp hs
    rw [finished, hnext, Option.getD_some, ← List.append_assoc]
    exact ih (h.step hnext) hrest

/-- The loop comes to a time by a run of its steps. -/
theorem exists_steps_runUntil (p : LoopPlan) (t fuel : Nat) (l : ScrapeLoop) :
    ∃ steps, steps? p l steps = some (runUntil p t fuel l) := by
  induction fuel generalizing l with
  | zero => exact ⟨[], rfl⟩
  | succ fuel ih =>
    cases hnext : next? p l with
    | none => exact ⟨[], by rw [runUntil, hnext]; rfl⟩
    | some next =>
      obtain ⟨u, s⟩ := next
      simp only [runUntil, hnext]
      by_cases hut : u ≤ t
      · rw [if_pos hut]
        cases hs : step? p l s with
        | none => exact ih l
        | some l' =>
          obtain ⟨steps, hsteps⟩ := ih l'
          exact ⟨s :: steps, steps?_cons.mpr ⟨l', hs, hsteps⟩⟩
      · rw [if_neg hut]
        exact ⟨[], rfl⟩

/-- A status shows exactly the cycles that are over, however they ended and whenever it is looked
at: the batch of the last one that could list its nodes, the complaint of the last one of all, and
readiness from the first one on that could list its nodes. So it is with the status of the loop at
every moment of every run, be it within a cycle: the cycles that are over are, in order, all that
began but the one that runs, and what the service says of its readiness is read off them. Neither
further cycles nor further steps take readiness back. The loop at a time is one of these moments. -/
theorem publishes_finished_cycles :
    (∀ events : List Status.Event,
      (events.foldl Status.tell {}).Publishes (events.filterMap Status.Event.cycle?) ∧
      ∀ more : List Status.Event, (events.foldl Status.tell {}).isReady = true →
        ((events ++ more).foldl Status.tell {}).isReady = true) ∧
    (∀ p steps l, steps? p {} steps = some l →
      Shows p l (finished p {} steps) ∧
      (∀ instruments now resolution,
        Desk.answer ⟨instruments, l.status, now, resolution⟩ { path := "/readyz" } =
          if (finished p {} steps).any Status.listed then Response.text 200 "ok"
          else Response.text 503 ("no metrics collected yet" ++
            ((finished p {} steps).getLast?.bind Status.complaint?).elim ""
              (", last error: " ++ ·))) ∧
      ∀ more l', steps? p l more = some l' → l.status.isReady = true →
        l'.status.isReady = true) ∧
    (∀ (s : Scraper) parent begins instruments,
      Status.listed (s.scrape parent begins instruments).outcome = true ↔
        ∃ nodes, s.listing = .ok nodes) ∧
    ∀ p t, ∃ steps, steps? p {} steps = some (atTime p t) := by
  refine ⟨fun events => ⟨?_, fun more hready => ?_⟩, fun p steps l hs => ⟨?_, ?_, ?_⟩,
    Scraper.listed_scrape, ?_⟩
  · exact Status.publishes_nil.foldl events
  · have hbefore := Status.publishes_nil.foldl events
    rw [List.foldl_append]
    exact hbefore.isReady_append (hbefore.foldl more) hready
  · exact (shows_start p).run hs
  · exact ((shows_start p).run hs).status.answer_readyz
  · intro more l' hmore hready
    have hbefore := (shows_start p).run hs
    exact hbefore.status.isReady_append (hbefore.run hmore).status hready
  · intro p t
    exact exists_steps_runUntil p t _ {}

/-- A first cycle cannot list its nodes and a second one can, which shows once it is over. -/
theorem publishes_finished_cycles_second :
    let p := LoopPlan.mk 10 (fun t => ⟨if t = 0 then .error ["down"] else .ok [⟨"a", [], true, none⟩],
      fun _ => ⟨none, true, false, .failed (.request "reset")⟩, 5, ⟨0, 0⟩⟩) none
    ∃ l l', steps? p {} [.begin, .store, .wait, .begin] = some l ∧
      steps? p l [.store] = some l' ∧
      l.status.isReady = false ∧ l.status.lastError = some "unable to list nodes: down" ∧
      l'.status.isReady = true ∧ ∃ instruments, l'.status.latest =
        some ((p.scraper 10).scrape ⟨none, some 20⟩ 10 instruments).batch := by
  intro p
  let i : Instruments := ({} : Instruments).recordScrape false
  let second := (p.scraper 10).scrape ⟨none, some 20⟩ 10 i
  refine ⟨_, _, rfl, rfl, ?_⟩
  have hfinished : finished p {} [.begin, .store, .wait, .begin, .store] =
      [({}, some (.listNodes ["down"])), second.outcome] := rfl
  obtain ⟨hshows, -, -⟩ := publishes_finished_cycles.2.1 p [.begin, .store, .wait, .begin] _ rfl
  obtain ⟨hshows', -, -⟩ := publishes_finished_cycles.2.1 p [.begin, .store, .wait, .begin, .store] _
    rfl
  have hlisted : Status.listed second.outcome = true :=
    (publishes_finished_cycles.2.2.1 (p.scraper 10) _ 10 i).mpr ⟨_, rfl⟩
  rw [hfinished] at hshows'
  have hlatest := hshows'.status.latest
  rw [List.filter_cons_of_neg (by decide), List.filter_cons_of_pos hlisted, List.filter_nil]
    at hlatest
  have hready := hshows'.status.isReady.mpr ⟨_, List.mem_cons_of_mem _ List.mem_cons_self, hlisted⟩
  exact ⟨rfl, hshows.status.lastError, hready, i, hlatest⟩

end ScrapeLoop

end NodeScrape
