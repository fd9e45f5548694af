import NodeScrape.Instruments.Exposition
import NodeScrape.Status

/-!
# Answers of the service

The service answers three paths: the exposition of its instruments, whether it is alive, and whether
it is ready.
-/

namespace NodeScrape

/-- An answer to a request. -/
structure Response where
  status : Nat
  contentType : Option String
  body : String
  deriving DecidableEq, Repr

namespace Response

/-- A plain text. -/
def text (status : Nat) (body : String) : Response :=
  ⟨status, some "text/plain; charset=utf-8", body⟩

/-- An answer without body. -/
def empty (status : Nat) : Response := ⟨status, none, ""⟩

/-- The exposition of the instruments. -/
def metrics (i : Instruments) : Response :=
  ⟨200, some "application/openmetrics-text; version=1.0.0; charset=utf-8", i.exposition⟩

/-- Whether cycles are due as they should be. -/
def alive (s : Status) (now : Instant) (resolution : Duration) : Response :=
  if s.isTimely now resolution then text 200 "ok"
  else text 500 "metric collection didn't run recently"

/-- Whether there is a batch; if not, what went wrong last. -/
def ready (s : Status) : Response :=
  if s.isReady then text 200 "ok"
  else match s.lastError with
    | some error => text 503 ("no metrics collected yet, last error: " ++ error)
    | none => text 503 "no metrics collected yet"

end Response

/-- What a request to the service asks for. -/
structure Visit where
  method : String := "GET"
  path : String
  deriving DecidableEq, Repr

/-- What the service answers from. -/
structure Desk where
  instruments : Instruments
  status : Status
  now : Instant
  resolution : Duration
  deriving DecidableEq

namespace Desk

/-- The answer that belongs to a path. -/
def page? (d : Desk) (path : String) : Option Response :=
  if path = "/metrics" then some (.metrics d.instruments)
  else if path = "/healthz" then some (.alive d.status d.now d.resolution)
  else if path = "/readyz" then some (.ready d.status)
  else none

/-- Answers a request. A path is known with and without a query, and may be asked for with or without
its body. -/
def answer (d : Desk) (v : Visit) : Response :=
  match d.page? (String.ofList (v.path.toList.takeWhile (· ≠ '?'))) with
  | none => .empty 404
  | some page =>
    if v.method = "GET" then page
    else if v.method = "HEAD" then { page with body := "" }
    else .empty 405

end Desk

end NodeScrape
