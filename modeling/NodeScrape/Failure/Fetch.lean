import NodeScrape.Batch.OfSummary
import NodeScrape.Json.Read
import NodeScrape.Node.Basic
import NodeScrape.Scope.Reason
import NodeScrape.Time.Duration

/-!
# Failures of one node

Why a node contributes nothing to a cycle: its fetch failed, or what it sent is unusable.
-/

namespace NodeScrape

/-- Why a node contributes nothing. -/
inductive FetchFailure where
  /-- Its time was up. -/
  | deadlineExceeded
  /-- It was called off. -/
  | canceled
  /-- It has no name. -/
  | missingIdentity
  /-- It has no address of a preferred kind. -/
  | noUsableAddress (kinds : List AddressKind)
  /-- The request failed. -/
  | request (detail : String)
  /-- The answer has a status other than success. -/
  | badStatus (status : UInt16) (url : String)
  /-- The answer does not decode. -/
  | decode (error : Json.Error)
  /-- The summary is unusable. -/
  | invalidSummary (text : String)
  /-- The client broke off. -/
  | panicked (text : String)
  deriving DecidableEq

namespace FetchFailure

/-- The failure of work whose scope is done. -/
def ofReason : DoneReason → FetchFailure
  | .canceled => canceled
  | .deadlineExceeded => deadlineExceeded

/-- The failure of an unusable summary. -/
def ofDefect (defect : SummaryDefect) : FetchFailure := invalidSummary defect.message

/-- Only a missed deadline counts as a timeout. -/
def isTimeout : FetchFailure → Bool
  | deadlineExceeded => true
  | _ => false

/-- The names of kinds of addresses, between brackets. -/
def kindsText (kinds : List AddressKind) : String :=
  "[" ++ String.intercalate ", " (kinds.map AddressKind.name) ++ "]"

/-- The sentence for a failure. -/
def message : FetchFailure → String
  | deadlineExceeded => "scrape deadline exceeded"
  | canceled => "scrape canceled"
  | missingIdentity => "node has no name"
  | noUsableAddress kinds => "node had no addresses that matched types " ++ kindsText kinds
  | request detail => "request failed: " ++ detail
  | badStatus status url => "unexpected status " ++ Nat.repr status.toNat ++ " from " ++ url
  | decode error => "decode summary failed: " ++ error.message
  | invalidSummary text => "invalid summary: " ++ text
  | panicked text => "summary client panicked: " ++ text

end FetchFailure

/-- What a client leaves behind when it breaks off. -/
inductive PanicPayload where
  /-- A text. -/
  | text (value : String)
  /-- Anything else. -/
  | opaqueValue
  deriving DecidableEq, Repr

/-- What is told of a client that broke off after some time. -/
def PanicPayload.describe (payload : PanicPayload) (elapsed : Duration) : String :=
  let told := match payload with
    | text value => value
    | opaqueValue => "unknown panic payload"
  told ++ " (after " ++ Duration.text elapsed ++ ")"

/-- The failure of one node. -/
structure NodeFailure where
  /-- The name of the node, or what stands for it. -/
  node : String
  cause : FetchFailure
  deriving DecidableEq

/-- The sentence for the failure of a node. -/
def NodeFailure.message (f : NodeFailure) : String :=
  "unable to fully scrape metrics from node " ++ f.node ++ ": " ++ f.cause.message

end NodeScrape
