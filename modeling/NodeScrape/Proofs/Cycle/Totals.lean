import NodeScrape.Proofs.Cycle.Calls

/-!
# Totals over calls

What any number of calls leave in the instruments that they share, however their steps fall between
each other.
-/

namespace NodeScrape

namespace Calls

open Instruments

variable {i : Instruments} {events : List Call.Event} {s s' : Calls}
  {reports : List (Batch × Option Failure)}

/-- Calls that have all returned have nothing outstanding and have each counted themselves by
whether they returned a failure. -/
theorem Kept.of_results (hk : s.Kept)
    (hr : s.calls.map Call.result? = reports.map some) :
    s.calls.flatMap Call.outstanding = [] ∧
      s.calls.flatMap Call.told = reports.map fun r => r.2.isNone := by
  obtain ⟨instruments, calls⟩ := s
  induction calls generalizing reports with
  | nil =>
    obtain rfl := List.map_eq_nil_iff.mp hr.symm
    exact ⟨rfl, rfl⟩
  | cons call rest ih =>
    cases reports with
    | nil => cases hr
    | cons r reports =>
      obtain ⟨hcall, hrest⟩ := List.cons.inj hr
      obtain ⟨hkept, hkrest⟩ := List.forall_mem_cons.mp hk
      obtain ⟨houtstanding, -, htold⟩ := hkept.of_result? hcall
      obtain ⟨hothers, htolds⟩ := ih hkrest hrest
      rw [List.flatMap_cons, List.flatMap_cons, houtstanding, htold, hothers, htolds]
      exact ⟨rfl, rfl⟩

/-- Every call is made by an event of its own. -/
theorem length_calls (h : s'.events? events = some s) :
    s.calls.length = s'.calls.length + events.countP Call.Event.isCall := by
  induction events generalizing s' with
  | nil =>
    cases h
    rfl
  | cons e rest ih =>
    obtain ⟨next, hnext, hrest⟩ := events?_cons.mp h
    have hlength : next.calls.length = s'.calls.length + if e.isCall then 1 else 0 := by
      cases e with
      | fail chain =>
        cases hnext
        exact List.length_append
      | list nodes =>
        cases hnext
        exact List.length_append
      | step index st =>
        obtain ⟨c, c', -, -, rfl⟩ := event?_step.mp hnext
        exact List.length_set
    rw [ih hrest, hlength, List.countP_cons]
    omega

/-- Once all calls have returned, every listed occurrence of a named node, and nothing else, is one
latency of its node, whatever came of it. A node that was not listed with its name has what it had
before, be it no series at all. Every call is one cycle, and one that succeeded exactly if it
returned no failure. -/
theorem latencies_and_cycles (h : (Calls.mk i []).events? events = some s)
    (hr : s.calls.map Call.result? = reports.map some) :
    (∀ name, s.instruments.observations name =
        i.observations name + (events.flatMap Call.Event.names).count name) ∧
      (∀ name, name ∉ events.flatMap Call.Event.names →
        s.instruments.latencies.get? name = i.latencies.get? name) ∧
      "" ∉ events.flatMap Call.Event.names ∧
      (∀ success, s.instruments.cycles success =
        i.cycles success + reports.countP fun r => r.2.isNone = success) ∧
      reports.length = events.countP Call.Event.isCall := by
  have hkept : (Calls.mk i []).Kept := fun call hcall => absurd hcall List.not_mem_nil
  obtain ⟨hinstruments, hreset, -, houtstanding, htold, -⟩ := events?_account hkept h
  obtain ⟨hnone, hcounted⟩ := (events?_kept hkept h).of_results hr
  rw [hnone, List.append_nil, List.flatMap_nil, List.nil_append] at houtstanding
  rw [hcounted, List.flatMap_nil, List.nil_append] at htold
  refine ⟨fun name => ?_, fun name hname => ?_, ?_, fun success => ?_, ?_⟩
  · rw [hinstruments, observations_foldl hreset, houtstanding.count_eq]
  · rw [hinstruments]
    exact latencies_foldl_of_not_mem hreset (mt houtstanding.mem_iff.mpr hname) i
  · intro hmem
    obtain ⟨e, -, he⟩ := List.mem_flatMap.mp hmem
    cases e with
    | list nodes =>
      obtain ⟨n, hn, hname⟩ := List.mem_map.mp he
      have hnamed := (List.mem_filter.mp hn).2
      simp [hname] at hnamed
    | fail chain => cases he
    | step index st => cases he
  · rw [hinstruments, cycles_foldl hreset, ← htold.count_eq, List.count, List.countP_map]
    rfl
  · have hlength := congrArg List.length hr
    rw [List.length_map, List.length_map] at hlength
    rw [← hlength, length_calls h]
    exact Nat.zero_add _

/-- A node is listed twice beside one without a name. One of its occurrences is left out, and its
task comes back only when a second call lists the node again; a third call cannot list any. -/
theorem latencies_and_cycles_late :
    ∃ s, ((Calls.mk {} []).events? [.list [⟨"a", [], true, none⟩, ⟨"", [], true, none⟩,
          ⟨"a", [], true, none⟩],
        .step 0 (.start 0), .step 0 (.start 0), .step 0 (.start 0), .step 0 .started,
        .step 0 (.settle 0 (.failed (.request "refused")) 0 ⟨0, 0⟩), .step 0 .expire,
        .step 0 .cutOff, .step 0 .cancelSelf, .step 0 .abort, .step 0 .close,
        .step 0 (.leaveOut 0), .list [⟨"a", [], true, none⟩], .step 0 .count, .step 0 .collect,
        .step 1 (.start 0), .step 1 .started, .step 0 (.settle 1 (.panicked .opaqueValue) 0 ⟨0, 0⟩),
        .step 1 (.settle 0 (.failed .canceled) 0 ⟨0, 0⟩), .step 1 .drained, .step 1 .cancelSelf,
        .step 1 .close, .step 1 .count, .step 1 .collect, .fail ["down"]] = some s ∧
      s.calls.map Call.result? =
        [({}, some (.nodes ⟨[⟨"<unnamed #1>", .missingIdentity⟩, ⟨"a", .request "refused"⟩,
            ⟨"a", .deadlineExceeded⟩], by decide⟩)),
          ({}, some (.nodes ⟨[⟨"a", .canceled⟩], by decide⟩)),
          ({}, some (.listNodes ["down"]))].map some) ∧
      s.instruments.observations "a" = 3 ∧ s.instruments.latencies.get? "" = none ∧
      s.instruments.cycles false = 3 ∧ s.instruments.cycles true = 0 := by
  refine Exists.imp (fun s hrun => ⟨hrun, ?_⟩) ⟨_, rfl, rfl⟩
  obtain ⟨hobservations, hlatencies, hunnamed, hcycles, -⟩ :=
    latencies_and_cycles hrun.1 hrun.2
  exact ⟨hobservations "a", hlatencies "" hunnamed, hcycles false, hcycles true⟩

/-- The mark of a node is the reading of the clock when the last of its occurrences that was
successful was settled, and it is what it was before where there is none. Nothing else marks a node,
and the successes of a call are the points of the batch that it returns, in their order. -/
theorem marks_of_successes (h : (Calls.mk i []).events? events = some s) :
    (∀ name, s.instruments.lastScrape.get? name =
        (((((Calls.mk i []).successes events).filter (·.2.1 = name)).getLast?).map
          (·.2.2.unixSeconds)).or (i.lastScrape.get? name)) ∧
      ((Calls.mk i []).writes events).filterMap Update.marked? =
        ((Calls.mk i []).successes events).map Prod.snd ∧
      ∀ k call batch failure, s.calls[k]? = some call → call.result? = some (batch, failure) →
        (((Calls.mk i []).successes events).filter (·.1 = k)).map (·.2.1) =
          batch.nodes.map NodePoint.name := by
  have hkept : (Calls.mk i []).Kept := fun call hcall => absurd hcall List.not_mem_nil
  obtain ⟨hinstruments, hreset, hmarked, -, -, hgathered⟩ := events?_account hkept h
  refine ⟨fun name => ?_, hmarked, fun k call batch failure hcall hr => ?_⟩
  · rw [hinstruments, lastScrape_foldl hreset, hmarked, List.filter_map, List.getLast?_map,
      Option.map_map]
    rfl
  · have hheld : s.gatheredIn k = batch.nodes := by
      rw [gatheredIn, hcall]
      exact ((events?_kept hkept h call (List.mem_of_getElem? hcall)).of_result? hr).2.1
    have hall := hgathered k
    rw [hheld] at hall
    exact hall.symm

/-- A node is successful in a first call and left out in a second, though its client has points in
the end; a third call cannot list any node. -/
theorem marks_of_successes_late :
    let points := Attempt.answered ⟨⟨"", some ⟨⟨⟨1970, 1, 1, by decide⟩, 0, 0, by decide, by decide⟩,
      some 1, none⟩, some ⟨⟨⟨1970, 1, 1, by decide⟩, 0, 0, by decide, by decide⟩, some 2, none⟩⟩, []⟩
    ∃ s, (Calls.mk {} []).events? [.list [⟨"a", [], true, none⟩], .step 0 (.start 0),
        .step 0 .started, .step 0 (.settle 0 points 0 ⟨7000000000, 7000000000⟩), .step 0 .drained,
        .step 0 .cancelSelf, .step 0 .close, .step 0 .count, .step 0 .collect,
        .list [⟨"a", [], true, none⟩], .step 1 (.start 0), .step 1 .started, .step 1 .expire,
        .step 1 .cutOff, .step 1 .cancelSelf, .step 1 .abort, .step 1 .close,
        .step 1 (.settle 0 points 0 ⟨9000000000, 9000000000⟩), .step 1 (.leaveOut 0),
        .step 1 .count, .step 1 .collect, .fail ["down"]] = some s ∧
      s.instruments.lastScrape.get? "a" = some (WallTime.unixSeconds 7000000000) ∧
      s.instruments.lastScrape.get? "b" = none := by
  show ∃ s, _ ∧ _ ∧ _
  refine Exists.imp (fun s hrun => ⟨hrun, ?_⟩) ⟨_, rfl⟩
  obtain ⟨hlast, -⟩ := marks_of_successes hrun
  exact ⟨hlast "a", hlast "b"⟩

end Calls

end NodeScrape
