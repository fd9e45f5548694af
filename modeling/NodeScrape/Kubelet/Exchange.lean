import NodeScrape.Failure.Fetch
import NodeScrape.Kubelet.Url
import NodeScrape.Scope.Race
import NodeScrape.Summary.Json

/-!
# Exchanges with a kubelet

What becomes of one request, by the ticks at which its answer's head and body arrive. The request
has the deadline of its scope as well, and looks at it before it looks at the answer.
-/

namespace NodeScrape.Kubelet

/-- A request for a summary. -/
structure Request where
  scheme : String
  host : String
  port : UInt16
  /-- The token that authorizes it. -/
  bearer : Option String
  deriving DecidableEq, Repr

/-- The address that a request asks for. -/
def Request.url (r : Request) : String := summaryUrl r.scheme r.host r.port

/-- What becomes of the body of an answer. -/
inductive Body where
  /-- It is there as a whole from a tick on. -/
  | complete (moment : Nat) (bytes : List UInt8)
  /-- It breaks off at a tick, and may say that time ran out. -/
  | broken (moment : Nat) (timedOut : Bool := false)
  /-- It never ends. -/
  | endless
  deriving DecidableEq, Repr

/-- What becomes of a request. -/
inductive Exchange where
  /-- It has no valid form and is not sent. -/
  | invalid
  /-- It fails at a tick, before there is an answer, and may say that time ran out. -/
  | broken (moment : Nat) (timedOut : Bool := false)
  /-- The head of its final answer arrives at a tick. -/
  | answered (moment : Nat) (status : UInt16) (body : Body)
  /-- There is never an answer. -/
  | silent
  deriving DecidableEq, Repr

/-- Whether a status tells of success. -/
def isSuccess (status : UInt16) : Bool := 200 ≤ status && status < 300

/-- The failure of a request that breaks off; if time ran out, a deadline was missed. -/
def brokenOff (timedOut : Bool) (detail : String) : FetchFailure :=
  if timedOut then .deadlineExceeded else .request detail

/-- What a body comes to at a tick. -/
def Body.poll (t : Nat) : Body → Option (Except FetchFailure Summary)
  | complete moment bytes =>
    if moment ≤ t then some ((Summary.decode bytes).mapError .decode) else none
  | broken moment timedOut =>
    if moment ≤ t then some (.error (brokenOff timedOut "body")) else none
  | endless => none

/-- The ticks at which something happens to a body. -/
def Body.moments : Body → List Nat
  | complete moment _ => [moment]
  | broken moment _ => [moment]
  | endless => []

namespace Exchange

/-- What an exchange comes to at a tick. Another status than success is reported as soon as the head
is there, whatever the body. -/
def poll (url : String) (deadline : Option Nat) (t : Nat) (x : Exchange) :
    Option (Except FetchFailure Summary) :=
  match x with
  | invalid => some (.error (.request "invalid"))
  | broken moment timedOut =>
    if Ending.reached deadline t then some (.error .deadlineExceeded)
    else if moment ≤ t then some (.error (brokenOff timedOut "broken")) else none
  | answered moment status body =>
    if Ending.reached deadline t then some (.error .deadlineExceeded)
    else if moment ≤ t then
      if isSuccess status then body.poll t else some (.error (.badStatus status url))
    else none
  | silent => if Ending.reached deadline t then some (.error .deadlineExceeded) else none

/-- The ticks at which something happens to an exchange. -/
def moments : Exchange → List Nat
  | invalid => []
  | broken moment _ => [moment]
  | answered moment _ body => moment :: body.moments
  | silent => []

end Exchange

end NodeScrape.Kubelet
