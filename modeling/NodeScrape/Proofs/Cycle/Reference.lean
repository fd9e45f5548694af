import NodeScrape.Cycle.Plan
import NodeScrape.Proofs.Cycle.Tally
import NodeScrape.Proofs.Scope.Race

/-!
# What a node comes to on the virtual clock

A node comes to its client's own result if that is there as long as the scope of its cycle lasts,
and else to the reason for which the scope is done. Neither the other nodes nor whether the client
heeds its scope matter. Times are counted from the tick at which the cycle begins.
-/

namespace NodeScrape

/-- How long a scope lasts that is canceled after some ticks, if ever, and whose deadline passes
after others. -/
structure Span where
  canceled : Option Nat
  deadline : Nat

namespace Span

/-- The ticks after which the scope is done. -/
def length (s : Span) : Nat := s.canceled.elim s.deadline (min · s.deadline)

/-- The reason for which the scope is done first; where both come at once the scope is canceled. -/
def reason (s : Span) : DoneReason :=
  if s.canceled.any (· ≤ s.deadline) then .canceled else .deadlineExceeded

/-- The ticks after which a node comes to its end whose client has its result after `delay`. -/
def ends (s : Span) (delay : Option Nat) : Nat := delay.elim s.length (min · s.length)

/-- What a node comes to whose client has its result after `delay`, if that result alone makes it
come to `own`. -/
def outcome (s : Span) (delay : Option Nat) (own : NodeOutcome) : NodeOutcome :=
  if delay.any (· ≤ s.length) then own else .error (.ofReason s.reason)

/-- A client has its own result within a span, or its node ends with the span. -/
theorem ends_own_or_with (s : Span) (delay : Option Nat) :
    (∃ d, delay = some d ∧ d ≤ s.length ∧ s.ends delay = d ∧ ∀ own, s.outcome delay own = own) ∨
    (∀ d, delay = some d → s.length < d) ∧ s.ends delay = s.length ∧
      ∀ own, s.outcome delay own = .error (.ofReason s.reason) := by
  cases delay with
  | none => exact .inr ⟨nofun, rfl, fun own => rfl⟩
  | some d =>
    by_cases hd : d ≤ s.length
    · exact .inl ⟨d, rfl, hd, Nat.min_eq_left hd, fun own => by simp [outcome, hd]⟩
    · have hlt : s.length < d := Nat.lt_of_not_le hd
      refine .inr ⟨fun _ he => Option.some.inj he ▸ hlt, ?_, fun own => by simp [outcome, hd]⟩
      exact Nat.min_eq_right (Nat.le_of_lt hlt)

end Span

namespace CyclePlan

/-- How long the scope of a cycle with a deadline lasts after the cycle has begun. -/
def span (p : CyclePlan) (deadline : Nat) : Span :=
  ⟨p.ending.canceled.map (· - p.begins), deadline - p.begins⟩

/-- The tick at which a node comes to its end. -/
def endTick (p : CyclePlan) (deadline : Nat) (n : Node) : Nat :=
  p.begins + (p.span deadline).ends (p.client n).delay

/-- What a node comes to. -/
def comesTo (p : CyclePlan) (deadline : Nat) (n : Node) : NodeOutcome :=
  (p.span deadline).outcome (p.client n).delay ((p.client n).result.outcome n.name p.took)

variable {p : CyclePlan} {deadline t slot : Nat} {n : Node} {c : Cycle}

/-- The scope is done from the end of its span on. -/
theorem span_length_le_iff (hd : p.ending.deadline = some deadline) (ht : p.begins ≤ t) :
    p.begins + (p.span deadline).length ≤ t ↔
      Ending.reached p.ending.canceled t = true ∨ Ending.reached p.ending.deadline t = true := by
  rw [hd]
  cases hc : p.ending.canceled with
  | none =>
    simp only [Span.length, span, hc, Option.map_none, Option.elim_none, Ending.reached_none,
      Ending.reached_some, decide_eq_true_iff, Bool.false_eq_true, false_or]
    omega
  | some k =>
    simp only [Span.length, span, hc, Option.map_some, Option.elim_some, Ending.reached_some,
      decide_eq_true_iff]
    omega

/-- At the end of its span the scope tells the reason for which it is done. -/
theorem head?_reasonsAt_end (hd : p.ending.deadline = some deadline)
    (ht : t = p.begins + (p.span deadline).length) :
    (p.ending.reasonsAt t).head? = some (p.span deadline).reason := by
  rw [Ending.head?_reasonsAt, hd]
  subst ht
  cases hc : p.ending.canceled with
  | none =>
    have hreached : deadline ≤ p.begins + (deadline - p.begins) := by omega
    simp [Span.length, Span.reason, span, hc, hreached]
  | some k =>
    simp only [Span.length, Span.reason, span, hc, Option.map_some, Option.elim_some,
      Ending.reached_some, Option.any_some, decide_eq_true_iff]
    by_cases hk : k - p.begins ≤ deadline - p.begins
    · rw [if_pos hk, if_pos (by omega)]
    · rw [if_neg hk, if_neg (by omega), if_pos (by omega)]

/-- A client has its own result exactly from the end of its delay on. -/
theorem reached_moment_iff :
    Ending.reached ((p.client n).moment p.begins) t = true ↔
      ∃ d, (p.client n).delay = some d ∧ p.begins + d ≤ t := by
  cases hdelay : (p.client n).delay with
  | none => simp [Behavior.moment, hdelay]
  | some d => simp [Behavior.moment, hdelay]

/-- A task that is asked before the end of its node comes to nothing. -/
theorem poll_of_lt (hd : p.ending.deadline = some deadline) (hb : p.begins ≤ t)
    (ht : t < p.endTick deadline n) :
    (p.client n).poll p.begins t (p.ending.reasonsAt t) = [] := by
  obtain ⟨hlength, hdelay⟩ : ¬ p.begins + (p.span deadline).length ≤ t ∧
      ∀ d, (p.client n).delay = some d → t < p.begins + d := by
    unfold endTick at ht
    rcases (p.span deadline).ends_own_or_with (p.client n).delay with
      ⟨d, hdelay, hle, hend, -⟩ | ⟨hdelay, hend, -⟩
    · refine ⟨by omega, fun d' hd' => ?_⟩
      obtain rfl : d = d' := Option.some.inj (hdelay.symm.trans hd')
      omega
    · refine ⟨by omega, fun d hd => ?_⟩
      have hlt := hdelay d hd
      omega
  have hreasons : p.ending.reasonsAt t = [] := by
    rw [span_length_le_iff hd hb, not_or, Bool.not_eq_true, Bool.not_eq_true] at hlength
    exact Ending.reasonsAt_eq_nil_iff.mpr hlength
  have hown : Ending.reached ((p.client n).moment p.begins) t = false := by
    rw [← Bool.not_eq_true, reached_moment_iff]
    rintro ⟨d, hd, hle⟩
    exact Nat.not_le.mpr (hdelay d hd) hle
  simp [Behavior.poll, Behavior.ready, hreasons, hown, Race.poll]

/-- A task that is asked at the end of its node comes to what the node comes to. -/
theorem poll_of_eq (hd : p.ending.deadline = some deadline)
    (hn : (p.client n).holdsThread = false) (ht : t = p.endTick deadline n) :
    ∃ o rest, (p.client n).poll p.begins t (p.ending.reasonsAt t) = o :: rest ∧
      match o with
      | .ok attempt => attempt.outcome n.name p.took = p.comesTo deadline n
      | .error reason => reason ∈ p.ending.reasonsAt t ∧
          .error (.ofReason reason) = p.comesTo deadline n := by
  unfold endTick at ht
  rcases (p.span deadline).ends_own_or_with (p.client n).delay with
    ⟨d, hdelay, hle, hend, hcomes⟩ | ⟨hdelay, hend, hcomes⟩
  · have hown : Ending.reached ((p.client n).moment p.begins) t = true :=
      reached_moment_iff.mpr ⟨d, hdelay, by omega⟩
    refine ⟨.ok (p.client n).result, [], ?_, (hcomes _).symm⟩
    simp [Behavior.poll, Behavior.ready, hown, Race.poll]
  · have hown : Ending.reached ((p.client n).moment p.begins) t = false := by
      rw [← Bool.not_eq_true, reached_moment_iff]
      rintro ⟨d, hd, hle⟩
      have hlt := hdelay d hd
      omega
    have hhead := head?_reasonsAt_end hd (ht.trans (by rw [hend]))
    obtain ⟨others, hreasons⟩ := List.head?_eq_some_iff.mp hhead
    cases hi : (p.client n).ignoresScope with
    | false =>
      refine ⟨.ok (.failed (.ofReason (p.span deadline).reason)), [], ?_,
        (hcomes _).symm⟩
      simp [Behavior.poll, Behavior.ready, hown, hi, hn, hreasons, Race.poll]
    | true =>
      refine ⟨.error (p.span deadline).reason, others.map .error, ?_, ?_,
        (hcomes _).symm⟩
      · simp [Behavior.poll, Behavior.ready, hown, hi, hn, hreasons, Race.poll]
      · rw [hreasons]
        exact List.mem_cons_self

end CyclePlan

end NodeScrape
