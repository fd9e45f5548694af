import NodeScrape.Failure.Basic
import NodeScrape.Service.Loop

/-!
# The service

The service consists of modules that are started one after another, the scrape loop before the
server. The first failure ends the start. A module that runs already goes on, because only a
shutdown stops it.
-/

namespace NodeScrape

/-- The modules of the service. -/
inductive Module where
  | scrapeLoop
  | server
  deriving DecidableEq, Repr

/-- The modules in the order in which they are started. -/
def Module.all : List Module := [scrapeLoop, server]

/-- What runs of the service. -/
structure Service where
  running : List Module := []
  /-- Where the server listens. -/
  bound : Option Net.SocketAddress := none
  deriving DecidableEq

/-- The outside of the service when it is started. -/
structure Surroundings where
  /-- Where the server shall listen. -/
  listen : Net.SocketAddress
  /-- What binding that address comes to: the address that was bound, or the detail of a failure. -/
  bind : Except String Net.SocketAddress

namespace Service

/-- Starts a module. -/
def startModule (w : Surroundings) (s : Service) : Module → Except Failure Service
  | .scrapeLoop => .ok { s with running := s.running ++ [.scrapeLoop] }
  | .server => match w.bind with
    | .ok address => .ok { running := s.running ++ [.server], bound := some address }
    | .error detail => .error (.httpServe w.listen detail)

/-- Starts modules until one fails: the failure, if there is one, and what runs then. -/
def startModules (w : Surroundings) (s : Service) : List Module → Option Failure × Service
  | [] => (none, s)
  | m :: rest => match startModule w s m with
    | .ok s => startModules w s rest
    | .error failure => (some failure, s)

/-- Starts the service. -/
def start (w : Surroundings) : Option Failure × Service := startModules w {} Module.all

/-- What the scrape loop of the service has done by a time. -/
def loopAt (s : Service) (p : LoopPlan) (t : Nat) : ScrapeLoop :=
  if .scrapeLoop ∈ s.running then ScrapeLoop.atTime p t else {}

end Service

end NodeScrape
