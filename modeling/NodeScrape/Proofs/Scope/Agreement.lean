import NodeScrape.Proofs.Kubelet.Exchange
import NodeScrape.Proofs.Scope.Outcome

/-!
# What a scope tells of its end

A scope can be asked whether it is done, and it can be waited for. Asking compares its deadline with
the clock, waiting sets a timer for it, and timers fire at whole ticks. So where a scope says that
its time is up, waiting for it ends at once or at the next tick, and with the reason that it gave.
-/

namespace NodeScrape

namespace Ending

/-- A scope that is canceled before its time is up has been canceled. -/
theorem reasonsAt_canceled {e : Ending} {t : Nat} (hc : reached e.canceled t = true)
    (hd : reached e.deadline t = false) : e.reasonsAt t = [.canceled] := by
  rw [reasonsAt, hc, hd]
  rfl

theorem reasonsAt_deadline {e : Ending} {t : Nat} (hc : reached e.canceled t = false)
    (hd : reached e.deadline t = true) : e.reasonsAt t = [.deadlineExceeded] := by
  rw [reasonsAt, hc, hd]
  rfl

/-- The one reason for which a scope is done tells whether its time is up. -/
theorem reached_deadline_of_reasonsAt {e : Ending} {t : Nat} {r : DoneReason}
    (hat : e.reasonsAt t = [r]) : reached e.deadline t = decide (r = .deadlineExceeded) := by
  revert hat
  unfold reasonsAt
  cases reached e.canceled t <;> cases reached e.deadline t <;> cases r <;> simp

end Ending

namespace Race

variable {α : Type} {e : Ending} {now t : Nat} {r : DoneReason} {ticks : List Nat}
  {ready : Nat → Option α}

/-- Work that is ready at the start counts. -/
theorem run_of_ready_now {value : α} (hready : ready now = some value) :
    run now ticks ready e = some (now, [.ok value]) := by
  rw [run, wakeups, firstOf, hready]
  rfl

/-- Work that is not ready at the start comes to its value if that is there at the tick at which its
scope is done, now or at the next tick, and else to the reason. -/
theorem run_of_next (ht : now ≤ t) (ht' : t ≤ now + 1) (hat : e.reasonsAt t = [r])
    (hbefore : now < t → e.reasonsAt now = [] ∧ t ∈ e.moments) (hready : ready now = none) :
    run now ticks ready e = some (t, [(ready t).elim (.error r) .ok]) := by
  refine run_eq_some ?_ (fun u hu hlt => ?_) ?_
  · rcases Nat.eq_or_lt_of_le ht with rfl | hlt
    · exact .inl rfl
    · exact .inr ⟨List.mem_append_right _ (hbefore hlt).2, hlt⟩
  · obtain rfl : u = now := by omega
    exact ⟨hready, (hbefore hlt).1⟩
  · rw [hat]
    cases ready t <;> rfl

/-- Waiting for a scope that is done now or at the next tick ends then. -/
theorem done_of_next (ht : now ≤ t) (ht' : t ≤ now + 1) (hat : e.reasonsAt t = [r])
    (hbefore : now < t → e.reasonsAt now = [] ∧ t ∈ e.moments) : done now e = some (t, [r]) := by
  rw [done, run_of_next ht ht' hat hbefore rfl]
  rfl

end Race

namespace Kubelet

/-- A client that has no answer yet tells the reason for which its scope is done now, or for which
the time of its scope is up at the next tick. -/
theorem Client.fetch_of_next {c : Client} {node : Node} {request : Request}
    {network : Request → Exchange} {e : Ending} {now t : Nat} {r : DoneReason}
    (hrequest : c.request? node = some request)
    (hsilent : (network request).poll request.url none now = none) (ht : now ≤ t)
    (ht' : t ≤ now + 1) (hat : e.reasonsAt t = [r])
    (hbefore : now < t → e.reasonsAt now = [] ∧ t ∈ e.moments ∧ r = .deadlineExceeded) :
    (c.fetch node none now e network).result = some (t, [.error (.ofReason r)]) := by
  have hvalid : network request ≠ .invalid := by
    intro hx
    rw [hx] at hsilent
    cases hsilent
  have hrun (hd : Ending.reached e.deadline now = false) :
      Race.run now (network request).moments
          (fun u => (network request).poll request.url e.deadline u) e =
        some (t, [((network request).poll request.url e.deadline t).elim (.error r) .ok]) :=
    Race.run_of_next ht ht' hat (fun hlt => ⟨(hbefore hlt).1, (hbefore hlt).2.1⟩)
      ((Exchange.poll_of_unreached hd _ _).trans hsilent)
  have hdeadline := Ending.reached_deadline_of_reasonsAt hat
  simp only [fetch, hrequest]
  rcases Nat.eq_or_lt_of_le ht with rfl | hlt
  · cases r with
    | canceled =>
      -- the request looks at the clock only, and its time is not up
      rw [hrun hdeadline, Exchange.poll_of_unreached hdeadline, hsilent]
      rfl
    | deadlineExceeded =>
      rw [Race.run_of_ready_now (Exchange.poll_of_reached hdeadline hvalid)]
      rfl
  · obtain ⟨hnone, -, rfl⟩ := hbefore hlt
    rw [hrun (Ending.reasonsAt_eq_nil_iff.mp hnone).2,
      Exchange.poll_of_reached hdeadline hvalid]
    rfl

end Kubelet

namespace Forest

variable {f : Forest} {s : Scope} {r : DoneReason} {e : Ending}

/-- What may become of a scope from now on: its deadline and whether it is canceled are known, and
it may be canceled later. -/
structure Continues (f : Forest) (s : Scope) (e : Ending) : Prop where
  canceled : Ending.reached e.canceled (Timer.passed f.now) = f.isCanceled s
  deadline : e.deadline = s.deadline.map Timer.tick

/-- The tick at which one who waits sees that a scope is done which says so now. -/
def seenAt (f : Forest) (s : Scope) : Nat :=
  if f.isCanceled s then Timer.passed f.now
  else max (Timer.passed f.now) (s.deadline.elim 0 Timer.tick)

/-- Without further cancellations a scope ends as it is known now. -/
theorem continues_ending (f : Forest) (s : Scope) : f.Continues s (f.ending s) where
  canceled := by
    unfold ending
    cases f.isCanceled s <;> simp
  deadline := rfl

/-- A scope says that its time is up as soon as its deadline has passed, and its timer fires at the
next tick at the latest. -/
theorem err_eq_some (hr : f.err s = some r) :
    f.isCanceled s = true ∧ r = .canceled ∨
      f.isCanceled s = false ∧ r = .deadlineExceeded ∧
        ∃ d, s.deadline = some d ∧ Timer.tick d ≤ Timer.passed f.now + 1 := by
  unfold err at hr
  cases hc : f.isCanceled s with
  | true =>
    rw [hc, if_pos rfl] at hr
    exact .inl ⟨rfl, (Option.some.inj hr).symm⟩
  | false =>
    rw [hc, if_neg Bool.false_ne_true] at hr
    obtain ⟨hpassed, hreason⟩ := Option.ite_none_right_eq_some.mp hr
    refine .inr ⟨rfl, (Option.some.inj hreason).symm, ?_⟩
    cases hd : s.deadline with
    | none =>
      rw [hd] at hpassed
      cases hpassed
    | some d =>
      rw [hd, Option.any_some, decide_eq_true_iff] at hpassed
      refine ⟨d, rfl, (Timer.tick_le_iff d _).mpr ?_⟩
      have hle : d ≤ f.now := hpassed
      unfold Timer.passed Duration.perMilli
      unfold Instant at hle
      omega

/-- Where a scope says why it is done, it is seen to be at once or at the next tick, and the reason
that holds then is the one that it gives, unless it is canceled and its timer has fired. -/
theorem seenAt_spec (hr : f.err s = some r) (he : f.Continues s e)
    (hone : ¬(Ending.reached e.canceled (f.seenAt s) = true ∧
      Ending.reached e.deadline (f.seenAt s) = true)) :
    Timer.passed f.now ≤ f.seenAt s ∧ f.seenAt s ≤ Timer.passed f.now + 1 ∧
      e.reasonsAt (f.seenAt s) = [r] ∧
      (Timer.passed f.now < f.seenAt s → e.reasonsAt (Timer.passed f.now) = [] ∧
        f.seenAt s ∈ e.moments ∧ r = .deadlineExceeded) ∧
      (f.seenAt s = Timer.passed f.now ↔
        r = .canceled ∨ Ending.reached e.deadline (Timer.passed f.now) = true) := by
  have hcanceled := he.canceled
  rcases err_eq_some hr with ⟨hc, rfl⟩ | ⟨hc, rfl, d, hd, hsoon⟩
  · have hnow : f.seenAt s = Timer.passed f.now := if_pos hc
    rw [hc] at hcanceled
    rw [hnow] at hone ⊢
    have hdeadline : Ending.reached e.deadline (Timer.passed f.now) = false :=
      Bool.eq_false_iff.mpr fun hd => hone ⟨hcanceled, hd⟩
    exact ⟨Nat.le_refl _, Nat.le_succ _, Ending.reasonsAt_canceled hcanceled hdeadline,
      fun hlt => absurd hlt (Nat.lt_irrefl _), iff_of_true rfl (.inl rfl)⟩
  · have hdeadline : e.deadline = some (Timer.tick d) := by rw [he.deadline, hd, Option.map_some]
    have hseen : f.seenAt s = max (Timer.passed f.now) (Timer.tick d) := by
      rw [seenAt, hc, if_neg Bool.false_ne_true, hd, Option.elim_some]
    have hfired : Ending.reached e.deadline (f.seenAt s) = true := by
      rw [hdeadline, Ending.reached_some, hseen, decide_eq_true_iff]
      exact Nat.le_max_right _ _
    have hlive : Ending.reached e.canceled (f.seenAt s) = false :=
      Bool.eq_false_iff.mpr fun hc => hone ⟨hc, hfired⟩
    refine ⟨?_, ?_, Ending.reasonsAt_deadline hlive hfired, fun hlt => ⟨?_, ?_, rfl⟩, ?_⟩
    · rw [hseen]
      exact Nat.le_max_left _ _
    · rw [hseen]
      exact Nat.max_le.mpr ⟨Nat.le_succ _, hsoon⟩
    · rw [Ending.reasonsAt_eq_nil_iff, hcanceled, hdeadline, Ending.reached_some,
        decide_eq_false_iff_not]
      exact ⟨hc, by omega⟩
    · rw [Ending.moments, hdeadline]
      refine List.mem_append_right _ (List.mem_singleton.mpr ?_)
      omega
    · rw [hdeadline, Ending.reached_some, decide_eq_true_iff, hseen]
      exact ⟨fun h => .inr (by omega), fun h => Nat.max_eq_left (h.resolve_left (by decide))⟩

/-- At a moment at which a scope says why it is done, and however it may be canceled later, one who
waits for it, or runs work in it that is not ready, is told the same reason: at once if the scope is
canceled or the timer for its deadline has fired, and else at the next tick, at which work that is
ready by then still counts. So does a client whose request has no answer yet: it comes to the
failure that it would have come to by asking first. Nothing is said of a scope that is canceled and
whose timer has fired as well. -/
theorem done_tells_err (hr : f.err s = some r) (he : f.Continues s e)
    (hone : ¬(Ending.reached e.canceled (f.seenAt s) = true ∧
      Ending.reached e.deadline (f.seenAt s) = true)) :
    let now := Timer.passed f.now
    let t := f.seenAt s
    (now ≤ t ∧ t ≤ now + 1 ∧ (t = now ↔ r = .canceled ∨ Ending.reached e.deadline now = true)) ∧
    Race.done now e = some (t, [r]) ∧
    (∀ {α : Type} (ticks : List Nat) (ready : Nat → Option α), ready now = none →
      Race.run now ticks ready e = some (t, [(ready t).elim (.error r) .ok])) ∧
    ∀ (c : Kubelet.Client) (node : Node) (request : Kubelet.Request)
      (network : Kubelet.Request → Kubelet.Exchange), c.request? node = some request →
      (network request).poll request.url none now = none →
      (c.fetch node (some r) now e network).result = some (now, [.error (.ofReason r)]) ∧
      (c.fetch node none now e network).result = some (t, [.error (.ofReason r)]) := by
  intro now t
  obtain ⟨hle, hnext, hat, hbefore, hwhen⟩ := seenAt_spec hr he hone
  have hrun {α : Type} (ticks : List Nat) (ready : Nat → Option α) (hready : ready now = none) :
      Race.run now ticks ready e = some (t, [(ready t).elim (.error r) .ok]) :=
    Race.run_of_next hle hnext hat (fun hlt => ⟨(hbefore hlt).1, (hbefore hlt).2.1⟩) hready
  refine ⟨⟨hle, hnext, hwhen⟩, ?_, hrun, fun c node request network hrequest hsilent => ⟨?_, ?_⟩⟩
  · exact Race.done_of_next hle hnext hat fun hlt => ⟨(hbefore hlt).1, (hbefore hlt).2.1⟩
  · simp only [Kubelet.Client.fetch, hrequest]
  · exact Kubelet.Client.fetch_of_next hrequest hsilent hle hnext hat hbefore

/-- A scope whose deadline lies within the present tick says that its time is up before its timer
fires, and one who waits for it then is told so at the next tick. -/
theorem done_tells_err_before_tick :
    let f : Forest := [.root, .timeout 0 100700000, .pass 100800000].foldl apply {}
    let child : Scope := ⟨[1, 0], some 100700000⟩
    f.err child = some .deadlineExceeded ∧
      Race.done 100 (f.ending child) = some (101, [.deadlineExceeded]) ∧
      Race.ofMoment 100 (some 102) "value" (f.ending child) =
        some (101, [.error .deadlineExceeded]) := by
  intro f child
  have herr : f.err child = some .deadlineExceeded := by decide
  have hone : ¬(Ending.reached (f.ending child).canceled (f.seenAt child) = true ∧
      Ending.reached (f.ending child).deadline (f.seenAt child) = true) := by decide
  have hnow : Timer.passed f.now = 100 := by decide
  have hseen : f.seenAt child = 101 := by decide
  obtain ⟨-, hdone, hrun, -⟩ := done_tells_err herr (continues_ending f child) hone
  rw [hnow, hseen] at hdone hrun
  exact ⟨herr, hdone, hrun [102] (Race.readyFrom (some 102) "value") (by decide)⟩

/-- Within the tick of its deadline a scope says that its time is up, but one who waits for it is
not told at once, and work that is ready when it is told still counts. Once the timer has fired and
the scope is canceled as well, it says that it is canceled, but one who waits may be told of either
reason. -/
theorem exists_err_told_otherwise :
    let f : Forest := [.root, .timeout 0 100700000, .pass 100800000].foldl apply {}
    let g : Forest := [.pass 200000, .cancel 1].foldl apply f
    let child : Scope := ⟨[1, 0], some 100700000⟩
    child ∈ f.scopes ∧ f.err child = some .deadlineExceeded ∧
      Race.done 100 (f.ending child) = some (101, [.deadlineExceeded]) ∧
      Race.ofMoment 100 (some 101) "value" (f.ending child) = some (101, [.ok "value"]) ∧
      g.err child = some .canceled ∧
      Race.done 101 (g.ending child) = some (101, [.canceled, .deadlineExceeded]) := by
  intro f g child
  have hat : (f.ending child).reasonsAt 101 = [.deadlineExceeded] := by decide
  have hbefore : 100 < 101 → (f.ending child).reasonsAt 100 = [] ∧
      101 ∈ (f.ending child).moments := by decide
  refine ⟨by decide, by decide, ?_, ?_, by decide, by decide⟩
  · exact Race.done_of_next (Nat.le_succ 100) (Nat.le_refl 101) hat hbefore
  · exact Race.run_of_next (Nat.le_succ 100) (Nat.le_refl 101) hat hbefore rfl

end Forest

end NodeScrape
