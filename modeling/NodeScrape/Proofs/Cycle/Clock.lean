import NodeScrape.Proofs.Cycle.Grace

/-!
# Cycles on the virtual clock

A cycle that waits is woken at a tick, and afterwards exactly those tasks have settled that settle
not after the tick. No settling is missed, because every one falls on a tick at which something
happens. So the cycle stops waiting when the last task has settled or the grace period is over.
-/

namespace NodeScrape

namespace CyclePlan

/-- Whether the task of a node settles before a tick. -/
def settledBefore (p : CyclePlan) (deadline t : Nat) (n : Node) : Bool :=
  (p.settleTick? deadline n).any (· < t)

/-- The entry of a node once all tasks that settle before a tick have settled. -/
def entryAt (p : CyclePlan) (deadline t : Nat) (n : Node) : Entry :=
  ⟨n.name, if p.settledBefore deadline t n then some (p.settlesTo deadline n) else none⟩

/-- The register of a cycle once all tasks that settle before a tick have settled. -/
def registerAt (p : CyclePlan) (deadline t : Nat) : Register :=
  p.named.map (p.entryAt deadline t)

/-- A cycle waits, and all tasks that settle before a tick have settled. -/
structure Waiting (p : CyclePlan) (deadline t : Nat) (c : Cycle) : Prop where
  stage : c.stage = .gathering
  tally : Cycle.Tally p.nodes c (p.registerAt deadline t)
  selfCanceled : c.selfCanceled = false
  canceled : c.parentCanceled = true → ∃ k < t, p.ending.canceled = some k
  expired : c.expired = true → ∃ k < t, p.ending.deadline = some k

/-- A cycle has stopped waiting at a tick, with the tasks that it has not waited for. -/
structure Stopped (p : CyclePlan) (deadline t : Nat) (c : Cycle) : Prop where
  stage : ∃ allSettled, c.stage = .stopped allSettled
  tally : Cycle.Tally p.nodes c (p.registerAt deadline (t + 1))
  canceled : c.parentCanceled = Ending.reached p.ending.canceled t

variable {p : CyclePlan} {deadline t u slot : Nat} {n : Node} {c : Cycle} {R : Register}

theorem settledBefore_iff :
    p.settledBefore deadline t n = true ↔ ∃ k, p.settleTick? deadline n = some k ∧ k < t := by
  simp [settledBefore, Option.any_eq_true_iff_get, Option.eq_some_iff_get_eq]

theorem settledBefore_succ :
    p.settledBefore deadline (t + 1) n = Ending.reached (p.settleTick? deadline n) t := by
  unfold settledBefore Ending.reached
  cases p.settleTick? deadline n with
  | none => rfl
  | some k => exact decide_eq_decide.mpr Nat.lt_succ_iff

theorem entryAt_of_settled (h : p.settledBefore deadline t n = true) :
    p.entryAt deadline t n = ⟨n.name, some (p.settlesTo deadline n)⟩ := by
  rw [entryAt, if_pos h]

theorem entryAt_of_unsettled (h : p.settledBefore deadline t n = false) :
    p.entryAt deadline t n = ⟨n.name, none⟩ := by
  rw [entryAt, if_neg (by rw [h]; nofun)]

/-- A task that has settled stays settled. -/
theorem settledBefore_mono (htu : t ≤ u) (h : p.settledBefore deadline t n = true) :
    p.settledBefore deadline u n = true := by
  obtain ⟨k, hk, hlt⟩ := settledBefore_iff.mp h
  exact settledBefore_iff.mpr ⟨k, hk, Nat.lt_of_lt_of_le hlt htu⟩

/-- No task settles before the cycle begins. -/
theorem not_settledBefore_begins (n : Node) : p.settledBefore deadline p.begins n = false := by
  rw [settledBefore, settleTick?]
  cases (p.span deadline).settles (p.client n) with
  | none => rfl
  | some k => simp

/-- No node is awaited exactly once all tasks have settled. -/
theorem registerAt_awaited_iff :
    (p.registerAt deadline t).awaited = [] ↔
      ∀ n ∈ p.named, p.settledBefore deadline t n = true := by
  rw [Register.awaited, registerAt, List.filterMap_map, List.filterMap_eq_nil_iff]
  refine forall₂_congr fun n _ => ?_
  cases h : p.settledBefore deadline t n with
  | true => simp [entryAt_of_settled h]
  | false => simp [entryAt_of_unsettled h]

/-- A task whose node is not awaited is asked in vain. -/
theorem askTask_of_pending_none (hp : c.ledger.board.pending? slot = none) :
    p.askTask t c n slot = c := by
  unfold askTask
  split
  · rfl
  · exact Cycle.step_of_pending_none hp rfl
  · exact Cycle.step_of_pending_none hp rfl

/-- A task that is asked when it settles settles its slot with what its node comes to. -/
theorem askTask_of_settling (hd : p.ending.deadline = some deadline)
    (hreasons : c.reasons = p.ending.reasonsAt t) (ht : p.settleTick? deadline n = some t)
    (slot : Nat) :
    ∃ f, p.askTask t c n slot = c.settleSlot slot f p.clock ∧ f n.name = p.settlesTo deadline n ∧
      ∀ q, f n.name = .ok q → q.node.name = n.name := by
  obtain ⟨o, rest, hpoll, hcomes⟩ := poll_of_settling hd ht
  unfold askTask
  rw [hreasons, hpoll]
  cases o with
  | ok attempt =>
    exact ⟨fun node => attempt.outcome node p.took, Cycle.step_of_step? rfl, hcomes,
      fun q hq => Attempt.name_of_outcome hq⟩
  | error reason =>
    refine ⟨fun _ => .error (.ofReason reason), ?_, hcomes.2, fun q hq => ?_⟩
    · exact Cycle.step_of_step? (Cycle.step?_giveUp.mpr ⟨hreasons ▸ hcomes.1, rfl⟩)
    · cases hq

/-- No settling between two ticks is missed. -/
def NoneMissed (p : CyclePlan) (deadline u t : Nat) (n : Node) : Prop :=
  ∀ k, p.settleTick? deadline n = some k → k < u ∨ t ≤ k

/-- Asking a task brings the entry of its node up to the tick. -/
theorem askTask_tally (hd : p.ending.deadline = some deadline) (hb : p.begins ≤ t)
    (hu : u ≤ t + 1) (hmiss : p.NoneMissed deadline u t n)
    (hstage : c.stage = .gathering) (hreasons : c.reasons = p.ending.reasonsAt t)
    (h : Cycle.Tally p.nodes c R) (hslot : R[slot]? = some (p.entryAt deadline u n)) :
    ∃ l, p.askTask t c n slot = { c with ledger := l } ∧
      Cycle.Tally p.nodes { c with ledger := l } (R.set slot (p.entryAt deadline (t + 1) n)) := by
  have hshow : c.ledger.board.Shows R := by
    simp only [Cycle.Tally, hstage] at h
    exact h.2
  have hkeep (hsame : p.entryAt deadline (t + 1) n = p.entryAt deadline u n) :
      R.set slot (p.entryAt deadline (t + 1) n) = R := by
    obtain ⟨hlt, hget⟩ := List.getElem?_eq_some_iff.mp hslot
    rw [hsame, ← hget, List.set_getElem_self]
  cases hgone : p.settledBefore deadline u n with
  | true =>
    have houtcome : R.outcome? slot = some (p.settlesTo deadline n) := by
      rw [Register.outcome?, hslot, entryAt_of_settled hgone]
      rfl
    refine ⟨c.ledger, askTask_of_pending_none (hshow.pending?_of_outcome houtcome), ?_⟩
    rw [hkeep (by rw [entryAt_of_settled hgone,
      entryAt_of_settled (settledBefore_mono hu hgone)])]
    exact h
  | false =>
    have hopen : p.entryAt deadline u n = ⟨n.name, none⟩ := entryAt_of_unsettled hgone
    cases hnow : p.settledBefore deadline (t + 1) n with
    | false =>
      refine ⟨c.ledger, ?_, ?_⟩
      · rw [askTask, hreasons, poll_of_unsettled hd hb (settledBefore_succ ▸ hnow)]
      · rw [hkeep (by rw [hopen, entryAt_of_unsettled hnow])]
        exact h
    | true =>
      obtain ⟨k, hk, hle⟩ := settledBefore_iff.mp hnow
      have hgone' : ¬ k < u := fun hlt =>
        Bool.false_ne_true (hgone.symm.trans (settledBefore_iff.mpr ⟨k, hk, hlt⟩))
      have htick : p.settleTick? deadline n = some t := by
        obtain rfl : k = t :=
          Nat.le_antisymm (Nat.le_of_lt_succ hle) ((hmiss k hk).resolve_left hgone')
        exact hk
      obtain ⟨q, hq, hname⟩ := hshow.exists_pending (hslot.trans (by rw [hopen]))
      obtain ⟨f, hask, hcomes, hf⟩ := askTask_of_settling hd hreasons htick slot
      obtain ⟨l, hl, -⟩ := Cycle.settleSlot_frame c slot f p.clock
      refine ⟨l, hask.trans hl, ?_⟩
      have htally := h.settleSlot hq (f := f) (by rw [hname]; exact hf) p.clock
      rw [hl, hname, hcomes] at htally
      rw [entryAt_of_settled hnow]
      exact htally

/-- Asking all tasks brings the register up to the tick. -/
theorem askTasks_tally (hd : p.ending.deadline = some deadline) (hb : p.begins ≤ t)
    (hu : u ≤ t + 1) (rest : List Node) (hmiss : ∀ n ∈ rest, p.NoneMissed deadline u t n)
    (hstage : c.stage = .gathering) (hreasons : c.reasons = p.ending.reasonsAt t)
    (asked : List Node) (h : Cycle.Tally p.nodes c
      (asked.map (p.entryAt deadline (t + 1)) ++ rest.map (p.entryAt deadline u))) :
    ∃ l, p.askTasks t c asked.length rest = { c with ledger := l } ∧
      Cycle.Tally p.nodes { c with ledger := l }
        ((asked ++ rest).map (p.entryAt deadline (t + 1))) := by
  induction rest generalizing c asked with
  | nil =>
    refine ⟨c.ledger, rfl, ?_⟩
    rw [List.append_nil]
    simpa using h
  | cons n rest ih =>
    have hslot : (asked.map (p.entryAt deadline (t + 1)) ++
        (n :: rest).map (p.entryAt deadline u))[asked.length]? = some (p.entryAt deadline u n) := by
      simp
    obtain ⟨l, hask, htally⟩ := askTask_tally hd hb hu (hmiss n List.mem_cons_self) hstage hreasons
      h hslot
    have hset : (asked.map (p.entryAt deadline (t + 1)) ++
        (n :: rest).map (p.entryAt deadline u)).set asked.length (p.entryAt deadline (t + 1) n) =
        (asked ++ [n]).map (p.entryAt deadline (t + 1)) ++ rest.map (p.entryAt deadline u) := by
      simp
    rw [hset] at htally
    obtain ⟨l', hrest, htally⟩ := ih (c := { c with ledger := l })
      (fun n' hn' => hmiss n' (List.mem_cons_of_mem _ hn')) hstage hreasons (asked ++ [n]) htally
    refine ⟨l', ?_, ?_⟩
    · rw [askTasks, hask]
      simpa using hrest
    · simpa using htally

/-- Looking at the scope notes whether it has been canceled and whether its deadline has passed. -/
theorem lookAtScope_eq (p : CyclePlan) (t : Nat) (c : Cycle) :
    p.lookAtScope t c = { c with
      parentCanceled := c.parentCanceled || Ending.reached p.ending.canceled t
      expired := c.expired || Ending.reached p.ending.deadline t } := by
  unfold lookAtScope
  cases Ending.reached p.ending.canceled t <;> cases Ending.reached p.ending.deadline t <;>
    simp [Cycle.step, Cycle.step?]

/-- What was noted before a tick holds at the tick. -/
theorem or_reached_eq {flag : Bool} {moment : Option Nat}
    (h : flag = true → ∃ k < u, moment = some k) (hu : u ≤ t + 1) :
    (flag || Ending.reached moment t) = Ending.reached moment t := by
  cases flag with
  | false => rfl
  | true =>
    obtain ⟨k, hk, rfl⟩ := h rfl
    have hle : k ≤ t := by omega
    simp [hle]

/-- A cycle that waits and knows what its scope has come to at a tick. -/
def waitingAt (p : CyclePlan) (t : Nat) (l : Ledger) : Cycle where
  stage := .gathering
  ledger := l
  parentCanceled := Ending.reached p.ending.canceled t
  expired := Ending.reached p.ending.deadline t

theorem reasons_waitingAt (p : CyclePlan) (t : Nat) (l : Ledger) :
    (p.waitingAt t l).reasons = p.ending.reasonsAt t := by
  rw [Cycle.reasons, Ending.reasonsAt, waitingAt, Bool.or_false]

theorem Waiting.lookAtScope (h : p.Waiting deadline u c) (hu : u ≤ t + 1) :
    p.lookAtScope t c = p.waitingAt t c.ledger := by
  rw [lookAtScope_eq, or_reached_eq h.canceled hu, or_reached_eq h.expired hu, waitingAt,
    ← h.stage, ← h.selfCanceled]

/-- A cycle that is woken has asked all its tasks when it goes on. -/
theorem Waiting.asked (h : p.Waiting deadline u c) (hd : p.ending.deadline = some deadline)
    (hb : p.begins ≤ t) (hu : u ≤ t + 1) (hmiss : ∀ n ∈ p.named, p.NoneMissed deadline u t n) :
    ∃ l, p.wake t c = p.goOn t (p.waitingAt t l) ∧
      Cycle.Tally p.nodes (p.waitingAt t l) (p.registerAt deadline (t + 1)) := by
  have htally : Cycle.Tally p.nodes (p.waitingAt t c.ledger) (p.registerAt deadline u) := by
    have hc := h.tally
    simp only [Cycle.Tally, h.stage] at hc
    exact hc
  obtain ⟨l, hask, htally⟩ := askTasks_tally hd hb hu p.named hmiss rfl
    (p.reasons_waitingAt t c.ledger) [] htally
  refine ⟨l, ?_, htally⟩
  rw [wake, h.lookAtScope hu]
  exact congrArg (p.goOn t) hask

/-- It is time to close the board once no node is awaited or the grace period is over. -/
theorem sealTick_le_iff_of_tally (hd : p.ending.deadline = some deadline) (hb : p.begins ≤ t)
    {l : Ledger} (h : Cycle.Tally p.nodes (p.waitingAt t l) (p.registerAt deadline (t + 1))) :
    p.sealTick deadline ≤ t ↔
      l.board.isDrained = true ∨ Ending.reached p.cutOff? t = true := by
  have hshow : l.board.Shows (p.registerAt deadline (t + 1)) := h.2
  have hdrained : l.board.isDrained = true ↔
      ∀ n ∈ p.named, Ending.reached (p.settleTick? deadline n) t = true := by
    rw [hshow.isDrained_iff, registerAt_awaited_iff]
    exact forall₂_congr fun n _ => by rw [settledBefore_succ]
  rw [sealTick_le_iff hb, hdrained, cutOff?_eq hd, Ending.reached_some, decide_eq_true_iff]

/-- Where no node is awaited the cycle stops waiting. -/
theorem stopped_of_isDrained {l : Ledger} (hdone : l.board.isDrained = true)
    (h : Cycle.Tally p.nodes (p.waitingAt t l) (p.registerAt deadline (t + 1))) :
    p.Stopped deadline t (p.goOn t (p.waitingAt t l)) := by
  have hstep : (p.waitingAt t l).step? .drained =
      some { p.waitingAt t l with stage := .stopped true } :=
    Cycle.step?_drained.mpr ⟨rfl, hdone, rfl⟩
  have hgo : p.goOn t (p.waitingAt t l) = { p.waitingAt t l with stage := .stopped true } :=
    (if_pos hdone).trans (Cycle.step_of_step? hstep)
  rw [hgo]
  exact ⟨⟨true, rfl⟩, h.quiet rfl hstep, rfl⟩

/-- Where the grace period is over the cycle stops waiting for the nodes that it still awaits. -/
theorem stopped_of_reached (hd : p.ending.deadline = some deadline) (hb : p.begins ≤ t) {l : Ledger}
    (hdone : ¬ l.board.isDrained = true) (hreached : Ending.reached p.cutOff? t = true)
    (h : Cycle.Tally p.nodes (p.waitingAt t l) (p.registerAt deadline (t + 1))) :
    p.Stopped deadline t (p.goOn t (p.waitingAt t l)) := by
  have hsome : (p.waitingAt t l).reasons.isEmpty = false := by
    rw [cutOff?_eq hd, Ending.reached_some, decide_eq_true_iff] at hreached
    have hlength : p.begins + (p.span deadline).length ≤ t :=
      Nat.le_trans (Nat.le_add_right _ _) hreached
    rw [reasons_waitingAt, ← Bool.not_eq_true, List.isEmpty_iff, Ending.reasonsAt_eq_nil_iff]
    rintro ⟨hcanceled, hdeadline⟩
    rcases (span_length_le_iff hd hb).mp hlength with hr | hr
    · exact Bool.false_ne_true (hcanceled.symm.trans hr)
    · exact Bool.false_ne_true (hdeadline.symm.trans hr)
  have hstep : (p.waitingAt t l).step? .cutOff =
      some { p.waitingAt t l with stage := .stopped false } :=
    Cycle.step?_cutOff.mpr ⟨rfl, hsome, rfl⟩
  have hgo : p.goOn t (p.waitingAt t l) = { p.waitingAt t l with stage := .stopped false } :=
    ((if_neg hdone).trans (if_pos hreached)).trans (Cycle.step_of_step? hstep)
  rw [hgo]
  exact ⟨⟨false, rfl⟩, h.quiet rfl hstep, rfl⟩

/-- What a cycle knows of its scope at a tick came about before the next one. -/
theorem waiting_waitingAt {l : Ledger}
    (h : Cycle.Tally p.nodes (p.waitingAt t l) (p.registerAt deadline (t + 1))) :
    p.Waiting deadline (t + 1) (p.waitingAt t l) := by
  have hbefore {moment : Option Nat} (hreached : Ending.reached moment t = true) :
      ∃ k < t + 1, moment = some k := by
    obtain ⟨k, hk, hle⟩ := (Option.any_eq_true _ _).mp hreached
    exact ⟨k, Nat.lt_succ_of_le (of_decide_eq_true hle), hk⟩
  exact ⟨rfl, h, rfl, hbefore, hbefore⟩

/-- A cycle that is woken stops waiting if it is time to close the board, and waits on otherwise. -/
theorem Waiting.wake (h : p.Waiting deadline u c) (hd : p.ending.deadline = some deadline)
    (hb : p.begins ≤ t) (hu : u ≤ t + 1) (hmiss : ∀ n ∈ p.named, p.NoneMissed deadline u t n) :
    (p.sealTick deadline ≤ t → p.Stopped deadline t (p.wake t c)) ∧
    (¬ p.sealTick deadline ≤ t → p.Waiting deadline (t + 1) (p.wake t c)) := by
  obtain ⟨l, hwake, htally⟩ := h.asked hd hb hu hmiss
  rw [hwake, sealTick_le_iff_of_tally hd hb htally]
  constructor
  · intro hlast
    by_cases hdone : l.board.isDrained = true
    · exact stopped_of_isDrained hdone htally
    · exact stopped_of_reached hd hb hdone (hlast.resolve_left hdone) htally
  · intro hlast
    obtain ⟨hdone, hreached⟩ := not_or.mp hlast
    have hgo : p.goOn t (p.waitingAt t l) = p.waitingAt t l :=
      (if_neg hdone).trans (if_neg hreached)
    rw [hgo]
    exact waiting_waitingAt htally

/-- A cycle that is woken whenever a task settles, in order, stops waiting when it is time to close
the board. -/
theorem Waiting.gather (h : p.Waiting deadline u c) (hd : p.ending.deadline = some deadline)
    (ticks : List Nat) (hsorted : ticks.Pairwise (· ≤ ·))
    (hlate : ∀ t ∈ ticks, p.begins ≤ t ∧ u ≤ t + 1)
    (hsettle : ∀ n ∈ p.named, ∀ k, p.settleTick? deadline n = some k → k < u ∨ k ∈ ticks)
    (hseal : p.sealTick deadline ∈ ticks) :
    ∃ c', p.gather c ticks = some (p.sealTick deadline, c') ∧
      p.Stopped deadline (p.sealTick deadline) c' := by
  induction ticks generalizing c u with
  | nil => cases hseal
  | cons t rest ih =>
    obtain ⟨hfirst, hsorted⟩ := List.pairwise_cons.mp hsorted
    obtain ⟨hb, hu⟩ := hlate t List.mem_cons_self
    have hmiss : ∀ n ∈ p.named, p.NoneMissed deadline u t n := by
      intro n hnamed k hk
      refine (hsettle n hnamed k hk).imp_right fun hmem => ?_
      rcases List.mem_cons.mp hmem with heq | hmem
      · exact Nat.le_of_eq heq.symm
      · exact hfirst _ hmem
    obtain ⟨hstop, hwait⟩ := h.wake hd hb hu hmiss
    by_cases hdone : p.sealTick deadline ≤ t
    · have heq : t = p.sealTick deadline := by
        rcases List.mem_cons.mp hseal with heq | hmem
        · exact heq.symm
        · exact Nat.le_antisymm (hfirst _ hmem) hdone
      have hnow := hstop hdone
      obtain ⟨allSettled, hstage⟩ := hnow.stage
      have hstopped : hasStopped (p.wake t c) = true := by rw [hasStopped, hstage]
      refine ⟨p.wake t c, ?_, heq ▸ hnow⟩
      rw [CyclePlan.gather, if_pos hstopped, heq]
    · have hnext := hwait hdone
      have hstopped : ¬ hasStopped (p.wake t c) = true := by
        rw [hasStopped, hnext.stage]
        nofun
      rw [CyclePlan.gather, if_neg hstopped]
      refine ih hnext hsorted (fun t' ht' => ?_) (fun n hnamed k hk => ?_) ?_
      · exact ⟨(hlate t' (List.mem_cons_of_mem _ ht')).1, Nat.succ_le_succ (hfirst t' ht')⟩
      · rcases hsettle n hnamed k hk with hgone | hmem
        · left
          omega
        · rcases List.mem_cons.mp hmem with heq | hmem
          · left
            omega
          · exact .inr hmem
      · rcases List.mem_cons.mp hseal with heq | hmem
        · exact absurd (Nat.le_of_eq heq) hdone
        · exact hmem

end CyclePlan

end NodeScrape
