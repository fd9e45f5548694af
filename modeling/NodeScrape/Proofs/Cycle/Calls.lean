import NodeScrape.Cycle.Scraper
import NodeScrape.Proofs.Cycle.Conservation

/-!
# Calls of a scraper

Calls of a scraper share its instruments. A task may outlive the call that started it, so its steps
may fall between those of later calls. In any order of steps the instruments come to what the calls
by themselves make of them: every listed occurrence of a named node is one latency of that node,
every call is one cycle, and a node is marked exactly where its points enter the batch of a call.
-/

namespace NodeScrape

/-- A call of a scraper: its nodes could not be listed, or it has a cycle over them. -/
inductive Call where
  | unlisted (chain : List String)
  | listed (cycle : Cycle)

namespace Call

/-- What a call that has returned hands out. -/
def result? : Call → Option (Batch × Option Failure)
  | unlisted chain => some ({}, some (.listNodes chain))
  | listed c => c.result?.map fun r => (r.1, r.2.map .nodes)

/-- The nodes for which a call has still to note a latency. -/
def outstanding : Call → List String
  | unlisted _ => []
  | listed c => c.outstanding

/-- The points of nodes that a call holds. -/
def gathered : Call → List NodePoint
  | unlisted _ => []
  | listed c => c.gathered

/-- What a call has counted itself as. -/
def told : Call → List Bool
  | unlisted _ => [false]
  | listed c => c.told

/-- The cycle of a call is one that its nodes can have come to. -/
def Kept : Call → Prop
  | unlisted _ => True
  | listed c => c.Orderly ∧ ∃ nodes R, Cycle.Tally nodes c R

/-- What can happen to calls. -/
inductive Event where
  /-- A call is made and its nodes cannot be listed. -/
  | fail (chain : List String)
  /-- A call is made and its nodes are listed. -/
  | list (nodes : List Node)
  /-- The cycle of the call number `index` or one of its tasks takes a step. -/
  | step (index : Nat) (s : Cycle.Step)

/-- The named nodes that an event lists. -/
def Event.names : Event → List String
  | list nodes => (namedNodes nodes).map Node.name
  | _ => []

/-- Whether an event is the making of a call. -/
def Event.isCall : Event → Bool
  | step .. => false
  | _ => true

end Call

/-- Calls with the instruments that they share, in the order in which they were made. -/
structure Calls where
  instruments : Instruments
  calls : List Call := []

namespace Calls

open Instruments

/-- The cycle of the call number `index`, if the call has one. -/
def cycle? (s : Calls) (index : Nat) : Option Cycle :=
  match s.calls[index]? with
  | some (.listed c) => some c
  | _ => none

/-- The calls after an event, if it can happen. -/
def event? (s : Calls) : Call.Event → Option Calls
  | .fail chain => some ⟨s.instruments.recordScrape false, s.calls ++ [.unlisted chain]⟩
  | .list nodes => some ⟨s.instruments, s.calls ++ [.listed (Cycle.begin nodes s.instruments)]⟩
  | .step index st => (s.cycle? index).bind fun c =>
    ((c.withInstruments s.instruments).step? st).map fun c' =>
      ⟨c'.ledger.instruments, s.calls.set index (.listed c')⟩

/-- The calls after events, if they can happen one after another. -/
def events? (s : Calls) : List Call.Event → Option Calls
  | [] => some s
  | e :: rest => (s.event? e).bind (events? · rest)

/-- What an event writes. -/
def writesAt (s : Calls) : Call.Event → List Update
  | .fail _ => [.scrape false]
  | .list _ => []
  | .step index st => (s.cycle? index).elim [] fun c => c.writesAt st

/-- The node that an event makes successful: the number of its call, its name, and the reading of
the clock. -/
def successAt? (s : Calls) : Call.Event → Option (Nat × String × WallTime)
  | .step index st => (s.cycle? index).bind fun c => (c.successAt? st).map (index, ·)
  | _ => none

/-- What events write, one after another. -/
def writes (s : Calls) : List Call.Event → List Update
  | [] => []
  | e :: rest => s.writesAt e ++ ((s.event? e).getD s).writes rest

/-- The nodes that events make successful, one after another. -/
def successes (s : Calls) : List Call.Event → List (Nat × String × WallTime)
  | [] => []
  | e :: rest => (s.successAt? e).toList ++ ((s.event? e).getD s).successes rest

/-- Every call is one that its nodes can have come to. -/
def Kept (s : Calls) : Prop := ∀ call ∈ s.calls, call.Kept

variable {s s' : Calls} {e : Call.Event} {events : List Call.Event} {index : Nat} {st : Cycle.Step}

theorem cycle?_eq_some {c : Cycle} :
    s.cycle? index = some c ↔ s.calls[index]? = some (.listed c) := by
  unfold cycle?
  cases s.calls[index]? with
  | none => simp
  | some call => cases call <;> simp

/-- A step that can be taken is one of a cycle, and writes to the instruments that are shared. -/
theorem event?_step :
    s.event? (.step index st) = some s' ↔ ∃ c c', s.cycle? index = some c ∧ c.step? st = some c' ∧
      s' = ⟨(c.writesAt st).foldl apply s.instruments,
        s.calls.set index (.listed (c'.withInstruments
          ((c.writesAt st).foldl apply s.instruments)))⟩ := by
  rw [event?, Option.bind_eq_some_iff]
  refine exists_congr fun c => ?_
  rw [exists_and_left, Cycle.step?_withInstruments, Option.map_map, Option.map_eq_some_iff]
  simp only [Function.comp_apply, eq_comm (a := s')]
  rfl

theorem events?_cons {rest : List Call.Event} :
    s.events? (e :: rest) = some s' ↔ ∃ next, s.event? e = some next ∧ next.events? rest = some s' :=
  Option.bind_eq_some_iff

/-- The instruments have what they had and what an event writes. -/
theorem instruments_event (h : s.event? e = some s') :
    s'.instruments = (s.writesAt e).foldl apply s.instruments := by
  cases e with
  | fail chain =>
    cases h
    rfl
  | list nodes =>
    cases h
    rfl
  | step index st =>
    obtain ⟨c, c', hcycle, -, rfl⟩ := event?_step.mp h
    rw [writesAt, hcycle]
    rfl

/-- A step that is taken in a call that is kept leaves it kept, and writes what it changes. -/
theorem Kept.step (hk : s.Kept) {c c' : Cycle} (hcycle : s.cycle? index = some c)
    (hstep : c.step? st = some c') :
    Call.Kept (.listed c') ∧ c.Balanced (c.writesAt st) c' := by
  obtain ⟨horderly, nodes, R, htally⟩ := hk _ (List.mem_of_getElem? (cycle?_eq_some.mp hcycle))
  obtain ⟨R', htally', -⟩ := htally.step hstep
  obtain ⟨horderly', hbalanced⟩ := horderly.step htally hstep
  exact ⟨⟨horderly', nodes, R', htally'⟩, hbalanced⟩

theorem kept_event (hk : s.Kept) (h : s.event? e = some s') : s'.Kept := by
  cases e with
  | fail chain =>
    cases h
    exact List.forall_mem_append.mpr ⟨hk, List.forall_mem_singleton.mpr trivial⟩
  | list nodes =>
    cases h
    refine List.forall_mem_append.mpr ⟨hk, List.forall_mem_singleton.mpr ?_⟩
    exact ⟨Cycle.orderly_begin _ _, nodes, [], Cycle.tally_begin _ _⟩
  | step index st =>
    obtain ⟨c, c', hcycle, hstep, rfl⟩ := event?_step.mp h
    obtain ⟨⟨hcounts, hemptied⟩, nodes, R, htally⟩ := (hk.step hcycle hstep).1
    intro call hcall
    rcases List.mem_or_eq_of_mem_set hcall with hcall | rfl
    · exact hk call hcall
    · exact ⟨⟨hcounts, hemptied⟩, nodes, R, htally⟩

theorem events?_kept (hk : s.Kept) (h : s.events? events = some s') : s'.Kept := by
  induction events generalizing s with
  | nil =>
    cases h
    exact hk
  | cons e rest ih =>
    obtain ⟨next, hnext, hrest⟩ := events?_cons.mp h
    exact ih (kept_event hk hnext) hrest

/-- A node that is listed is outstanding until its latency is noted. -/
theorem outstanding_event (hk : s.Kept) (h : s.event? e = some s') :
    (s.calls.flatMap Call.outstanding ++ e.names).Perm
      ((s.writesAt e).filterMap Update.observed? ++ s'.calls.flatMap Call.outstanding) := by
  cases e with
  | fail chain =>
    cases h
    simp only [Call.Event.names, Call.outstanding, List.append_nil, List.flatMap_append,
      List.flatMap_singleton]
    exact .refl _
  | list nodes =>
    cases h
    simp [Call.Event.names, writesAt, Call.outstanding, Cycle.outstanding, Cycle.begin,
      Board.unsettled]
  | step index st =>
    obtain ⟨c, c', hcycle, hstep, rfl⟩ := event?_step.mp h
    obtain ⟨before, after, hcalls, -, hset⟩ := exists_append_set (cycle?_eq_some.mp hcycle)
      (.listed (c'.withInstruments ((c.writesAt st).foldl apply s.instruments)))
    rw [writesAt, hcycle, hset, hcalls]
    simp only [Call.Event.names, List.append_nil, List.flatMap_append, List.flatMap_cons,
      Option.elim_some, Call.outstanding]
    have hmoved := ((hk.step hcycle hstep).2.outstanding.append_right
      (after.flatMap Call.outstanding)).append_left (before.flatMap Call.outstanding)
    refine hmoved.trans ?_
    rw [List.append_assoc]
    exact List.perm_append_comm_assoc _ _ _

/-- A call counts itself once. -/
theorem told_event (hk : s.Kept) (h : s.event? e = some s') :
    (s'.calls.flatMap Call.told).Perm
      (s.calls.flatMap Call.told ++ (s.writesAt e).filterMap Update.counted?) := by
  cases e with
  | fail chain =>
    cases h
    simp [writesAt, Call.told, Update.counted?]
  | list nodes =>
    cases h
    simp [writesAt, Call.told, Cycle.told, Cycle.begin]
  | step index st =>
    obtain ⟨c, c', hcycle, hstep, rfl⟩ := event?_step.mp h
    obtain ⟨before, after, hcalls, -, hset⟩ := exists_append_set (cycle?_eq_some.mp hcycle)
      (.listed (c'.withInstruments ((c.writesAt st).foldl apply s.instruments)))
    have htold := (hk.step hcycle hstep).2.told
    have hsame (i : Instruments) : (c'.withInstruments i).told = c'.told := rfl
    rw [writesAt, hcycle, hset, hcalls]
    simp only [List.flatMap_append, List.flatMap_cons, Option.elim_some, Call.told, hsame,
      htold, List.append_assoc]
    exact (List.perm_append_comm.append_left _).append_left _

/-- The points that the call number `index` holds. -/
def gatheredIn (s : Calls) (index : Nat) : List NodePoint := s.calls[index]?.elim [] Call.gathered

/-- The points that a call holds grow by those of the node that an event makes successful in it. -/
theorem gatheredIn_event (hk : s.Kept) (h : s.event? e = some s') (k : Nat) :
    (s'.gatheredIn k).map NodePoint.name = (s.gatheredIn k).map NodePoint.name ++
      ((s.successAt? e).toList.filter (·.1 = k)).map (·.2.1) := by
  have hnew (call : Call) (hcall : call.gathered = []) (i : Instruments) :
      gatheredIn ⟨i, s.calls ++ [call]⟩ k = s.gatheredIn k := by
    unfold gatheredIn
    rw [List.getElem?_append]
    split
    · rfl
    · rename_i hk
      rw [List.getElem?_eq_none (Nat.le_of_not_lt hk), List.getElem?_singleton]
      split <;> simp [hcall]
  cases e with
  | fail chain =>
    cases h
    rw [hnew _ rfl]
    exact (List.append_nil _).symm
  | list nodes =>
    cases h
    rw [hnew _ rfl]
    exact (List.append_nil _).symm
  | step index st =>
    obtain ⟨c, c', hcycle, hstep, rfl⟩ := event?_step.mp h
    have hcall := cycle?_eq_some.mp hcycle
    obtain ⟨hlt, -⟩ := List.getElem?_eq_some_iff.mp hcall
    simp only [successAt?, hcycle, Option.bind_some]
    by_cases hk : index = k
    · subst hk
      have hgathered := (hk.step hcycle hstep).2.gathered
      rw [Cycle.marked_writesAt] at hgathered
      simp only [gatheredIn, List.getElem?_set_self hlt, hcall, Option.elim_some, Call.gathered]
      refine hgathered.trans ?_
      cases c.successAt? st <;> simp
    · simp only [gatheredIn, List.getElem?_set_ne hk]
      cases c.successAt? st <;> simp [hk]

/-- What an event marks is what it makes successful. -/
theorem marked_writesAt (s : Calls) (e : Call.Event) :
    (s.writesAt e).filterMap Update.marked? = (s.successAt? e).toList.map Prod.snd := by
  cases e with
  | fail chain => rfl
  | list nodes => rfl
  | step index st =>
    rw [writesAt, successAt?]
    cases s.cycle? index with
    | none => rfl
    | some c =>
      rw [Option.elim_some, Option.bind_some, Cycle.marked_writesAt]
      cases c.successAt? st <;> rfl

theorem reset_not_mem_writesAt (s : Calls) (e : Call.Event) : .reset ∉ s.writesAt e := by
  cases e with
  | fail chain => simp [writesAt]
  | list nodes => simp [writesAt]
  | step index st =>
    rw [writesAt]
    cases s.cycle? index with
    | none => simp
    | some c => exact c.reset_not_mem_writesAt st

/-- What events write and make successful is what the calls come to by them. -/
theorem events?_account (hk : s.Kept) (h : s.events? events = some s') :
    s'.instruments = (s.writes events).foldl apply s.instruments ∧
      .reset ∉ s.writes events ∧
      (s.writes events).filterMap Update.marked? = (s.successes events).map Prod.snd ∧
      (s.calls.flatMap Call.outstanding ++ events.flatMap Call.Event.names).Perm
        ((s.writes events).filterMap Update.observed? ++ s'.calls.flatMap Call.outstanding) ∧
      (s'.calls.flatMap Call.told).Perm
        (s.calls.flatMap Call.told ++ (s.writes events).filterMap Update.counted?) ∧
      ∀ k, (s'.gatheredIn k).map NodePoint.name = (s.gatheredIn k).map NodePoint.name ++
        ((s.successes events).filter (·.1 = k)).map (·.2.1) := by
  induction events generalizing s with
  | nil =>
    cases h
    simp [writes, successes]
  | cons e rest ih =>
    obtain ⟨next, hnext, hrest⟩ := events?_cons.mp h
    obtain ⟨hinstruments, hreset, hmarked, houtstanding, htold, hgathered⟩ :=
      ih (kept_event hk hnext) hrest
    rw [writes, successes, hnext, Option.getD_some]
    refine ⟨?_, ?_, ?_, ?_, ?_, fun k => ?_⟩
    · rw [hinstruments, instruments_event hnext, List.foldl_append]
    · exact fun hmem => (List.mem_append.mp hmem).elim (reset_not_mem_writesAt s e) hreset
    · rw [List.filterMap_append, marked_writesAt, hmarked, List.map_append]
    · have hfirst := (outstanding_event hk hnext).append_right (rest.flatMap Call.Event.names)
      rw [List.append_assoc, List.append_assoc] at hfirst
      rw [List.flatMap_cons, List.filterMap_append, List.append_assoc]
      exact hfirst.trans (houtstanding.append_left _)
    · rw [List.filterMap_append, ← List.append_assoc]
      exact htold.trans ((told_event hk hnext).append_right _)
    · rw [hgathered, gatheredIn_event hk hnext, List.filter_append, List.map_append,
        List.append_assoc]

end Calls

namespace Call

variable {call : Call} {batch : Batch} {failure : Option Failure}

/-- A call that has returned has no latency to note any more, holds the points of its batch, and has
counted itself by whether it returned a failure. -/
theorem Kept.of_result? (hk : call.Kept) (hr : call.result? = some (batch, failure)) :
    call.outstanding = [] ∧ call.gathered = batch.nodes ∧ call.told = [failure.isNone] := by
  cases call with
  | unlisted chain =>
    cases hr
    exact ⟨rfl, rfl, rfl⟩
  | listed c =>
    obtain ⟨horderly, nodes, R, htally⟩ := hk
    obtain ⟨⟨b, f⟩, hc, he⟩ := Option.map_eq_some_iff.mp hr
    cases he
    obtain ⟨houtstanding, hgathered, htold⟩ := horderly.of_result? htally hc
    refine ⟨houtstanding, hgathered, htold.trans ?_⟩
    cases f <;> rfl

end Call

end NodeScrape
