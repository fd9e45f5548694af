import NodeScrape.Kubelet.Client
import NodeScrape.Proofs.Scope.Race

/-!
# What an exchange comes to

An exchange that nothing cuts off comes to its outcome at one tick: when the head is there if the
status tells of no success, else when the body is. At any tick a request either finds its deadline
passed, or that outcome, or nothing.
-/

namespace NodeScrape

/-- The failures that a scrape finds by itself, whatever its client. -/
inductive FetchFailure.FoundByScrape : FetchFailure → Prop where
  | missingIdentity : FoundByScrape .missingIdentity
  | invalidSummary (text : String) : FoundByScrape (.invalidSummary text)
  | panicked (text : String) : FoundByScrape (.panicked text)

namespace Kubelet

namespace Exchange

/-- What an exchange comes to that nothing cuts off, and the tick at which that is there. -/
inductive ComesTo (url : String) : Exchange → Nat → Except FetchFailure Summary → Prop where
  /-- It breaks off before there is an answer. -/
  | broken {moment : Nat} : ComesTo url (.broken moment false) moment (.error (.request "broken"))
  /-- It breaks off before there is an answer and says that time ran out. -/
  | timedOut {moment : Nat} : ComesTo url (.broken moment true) moment (.error .deadlineExceeded)
  /-- It is answered with another status than success; the body is not waited for. -/
  | refused {moment : Nat} {status : UInt16} {body : Body} (hstatus : status < 200 ∨ 300 ≤ status) :
      ComesTo url (.answered moment status body) moment (.error (.badStatus status url))
  /-- It is answered with a body that decodes. -/
  | decoded {moment arrival : Nat} {status : UInt16} {bytes : List UInt8} {summary : Summary}
      (hstatus : 200 ≤ status ∧ status < 300) (hbody : Summary.decode bytes = .ok summary) :
      ComesTo url (.answered moment status (.complete arrival bytes)) (max moment arrival)
        (.ok summary)
  /-- It is answered with a body that does not decode. -/
  | undecodable {moment arrival : Nat} {status : UInt16} {bytes : List UInt8} {error : Json.Error}
      (hstatus : 200 ≤ status ∧ status < 300) (hbody : Summary.decode bytes = .error error) :
      ComesTo url (.answered moment status (.complete arrival bytes)) (max moment arrival)
        (.error (.decode error))
  /-- It breaks off within the body. -/
  | bodyBroken {moment arrival : Nat} {status : UInt16} (hstatus : 200 ≤ status ∧ status < 300) :
      ComesTo url (.answered moment status (.broken arrival false)) (max moment arrival)
        (.error (.request "body"))
  /-- It breaks off within the body and says that time ran out. -/
  | bodyTimedOut {moment arrival : Nat} {status : UInt16} (hstatus : 200 ≤ status ∧ status < 300) :
      ComesTo url (.answered moment status (.broken arrival true)) (max moment arrival)
        (.error .deadlineExceeded)

variable {x : Exchange} {url : String} {deadline : Option Nat} {t m : Nat}
  {r : Except FetchFailure Summary}

theorem isSuccess_eq_true_iff {status : UInt16} :
    isSuccess status = true ↔ 200 ≤ status ∧ status < 300 := by
  simp only [isSuccess, Bool.and_eq_true, decide_eq_true_eq]

theorem isSuccess_eq_false_iff {status : UInt16} :
    isSuccess status = false ↔ status < 200 ∨ 300 ≤ status := by
  rw [← Bool.not_eq_true, isSuccess_eq_true_iff, UInt16.le_iff_toNat_le, UInt16.lt_iff_toNat_lt,
    UInt16.lt_iff_toNat_lt, UInt16.le_iff_toNat_le]
  omega

/-- A request looks at its deadline only once it has passed. -/
theorem poll_of_unreached (hd : Ending.reached deadline t = false) (x : Exchange) (url : String) :
    x.poll url deadline t = x.poll url none t := by
  cases x <;> simp [poll, hd]

/-- A request that was sent has run out of time once its deadline has passed. -/
theorem poll_of_reached (hd : Ending.reached deadline t = true) (hx : x ≠ .invalid) :
    x.poll url deadline t = some (.error .deadlineExceeded) := by
  cases x with
  | invalid => exact absurd rfl hx
  | broken moment timedOut => exact if_pos hd
  | answered moment status body => exact if_pos hd
  | silent => exact if_pos hd

/-- Within an answer of success a request waits for the body. -/
theorem poll_answered_of_success {moment : Nat} {status : UInt16} {body : Body}
    (hstatus : 200 ≤ status ∧ status < 300) :
    (answered moment status body).poll url none t = if moment ≤ t then body.poll t else none := by
  simp only [poll, Ending.reached_none, isSuccess_eq_true_iff.mpr hstatus, if_true,
    Bool.false_eq_true, if_false]

/-- Two things are there once the later of them is. -/
theorem ite_le_max {moment arrival : Nat} {found : Option (Except FetchFailure Summary)} :
    (if moment ≤ t then if arrival ≤ t then found else none else none) =
      if max moment arrival ≤ t then found else none := by
  by_cases hm : moment ≤ t
  · by_cases ha : arrival ≤ t
    · rw [if_pos hm, if_pos ha, if_pos (Nat.max_le.mpr ⟨hm, ha⟩)]
    · rw [if_pos hm, if_neg ha, if_neg (fun h => ha (Nat.max_le.mp h).2)]
  · rw [if_neg hm, if_neg (fun h => hm (Nat.max_le.mp h).1)]

/-- Without a deadline a request finds the outcome of its exchange from its tick on. -/
theorem ComesTo.poll_eq (h : x.ComesTo url m r) :
    x.poll url none t = if m ≤ t then some r else none := by
  cases h with
  | broken => rfl
  | timedOut => rfl
  | refused hstatus =>
    simp only [poll, Ending.reached_none, isSuccess_eq_false_iff.mpr hstatus, Bool.false_eq_true,
      if_false]
  | decoded hstatus hbody =>
    rw [poll_answered_of_success hstatus, Body.poll, hbody]
    exact ite_le_max
  | undecodable hstatus hbody =>
    rw [poll_answered_of_success hstatus, Body.poll, hbody]
    exact ite_le_max
  | bodyBroken hstatus =>
    rw [poll_answered_of_success hstatus]
    exact ite_le_max
  | bodyTimedOut hstatus =>
    rw [poll_answered_of_success hstatus]
    exact ite_le_max

/-- An exchange that was begun comes to something, or a request without a deadline never finds
anything. -/
theorem comesTo_or_never (hx : x ≠ .invalid) (url : String) :
    (∃ m r, x.ComesTo url m r) ∨ ∀ t, x.poll url none t = none := by
  cases x with
  | invalid => exact absurd rfl hx
  | broken moment timedOut =>
    cases timedOut with
    | false => exact .inl ⟨_, _, .broken⟩
    | true => exact .inl ⟨_, _, .timedOut⟩
  | silent => exact .inr fun _ => rfl
  | answered moment status body =>
    cases hsuccess : isSuccess status with
    | false => exact .inl ⟨_, _, .refused (isSuccess_eq_false_iff.mp hsuccess)⟩
    | true =>
      have hstatus := isSuccess_eq_true_iff.mp hsuccess
      cases body with
      | complete arrival bytes =>
        cases hbody : Summary.decode bytes with
        | ok summary => exact .inl ⟨_, _, .decoded hstatus hbody⟩
        | error error => exact .inl ⟨_, _, .undecodable hstatus hbody⟩
      | broken arrival timedOut =>
        cases timedOut with
        | false => exact .inl ⟨_, _, .bodyBroken hstatus⟩
        | true => exact .inl ⟨_, _, .bodyTimedOut hstatus⟩
      | endless =>
        refine .inr fun t => ?_
        rw [poll_answered_of_success hstatus]
        exact ite_self none

/-! ## The failures that are told -/

theorem ComesTo.not_foundByScrape {f : FetchFailure} (h : x.ComesTo url m (.error f)) :
    ¬ f.FoundByScrape := by
  intro hf
  cases hf <;> cases h

/-- No request comes to a failure that only a scrape can find. -/
theorem not_foundByScrape_of_poll {f : FetchFailure}
    (h : x.poll url deadline t = some (.error f)) : ¬ f.FoundByScrape := by
  by_cases hx : x = .invalid
  · subst hx
    cases h
    nofun
  cases hd : Ending.reached deadline t with
  | true =>
    rw [poll_of_reached hd hx] at h
    cases h
    nofun
  | false =>
    rw [poll_of_unreached hd] at h
    rcases comesTo_or_never hx url with ⟨m, r, hcomes⟩ | hnever
    · rw [hcomes.poll_eq] at h
      obtain ⟨-, heq⟩ := Option.ite_none_right_eq_some.mp h
      cases heq
      exact hcomes.not_foundByScrape
    · rw [hnever] at h
      cases h

end Exchange

/-- No client of kubelets tells a failure that only a scrape can find. -/
theorem Client.not_foundByScrape {c : Client} {node : Node} {err : Option DoneReason} {start : Nat}
    {e : Ending} {network : Request → Exchange} {t : Nat}
    {outcomes : List (Except FetchFailure Summary)} {f : FetchFailure}
    (hresult : (c.fetch node err start e network).result = some (t, outcomes))
    (hf : .error f ∈ outcomes) : ¬ f.FoundByScrape := by
  have hreason (reason : DoneReason) : ¬ (FetchFailure.ofReason reason).FoundByScrape := by
    cases reason <;> nofun
  cases hrequest : c.request? node with
  | none =>
    simp only [fetch, hrequest, Option.some.injEq, Prod.mk.injEq] at hresult
    obtain ⟨-, rfl⟩ := hresult
    cases List.mem_singleton.mp hf
    nofun
  | some request =>
    cases err with
    | some reason =>
      simp only [fetch, hrequest, Option.some.injEq, Prod.mk.injEq] at hresult
      obtain ⟨-, rfl⟩ := hresult
      cases List.mem_singleton.mp hf
      exact hreason reason
    | none =>
      simp only [fetch, hrequest, Option.map_eq_some_iff, Prod.mk.injEq] at hresult
      obtain ⟨⟨u, raced⟩, hrun, -, rfl⟩ := hresult
      obtain ⟨outcome, hmem, heq⟩ := List.mem_map.mp hf
      cases outcome with
      | error reason =>
        cases heq
        exact hreason reason
      | ok fetched =>
        subst heq
        exact Exchange.not_foundByScrape_of_poll (Race.ready_of_mem_firstOf hrun hmem)

end Kubelet

end NodeScrape
