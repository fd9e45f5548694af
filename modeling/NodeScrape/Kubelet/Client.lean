import NodeScrape.Config.Basic
import NodeScrape.Failure.Basic
import NodeScrape.Files.Tree
import NodeScrape.Kubelet.Exchange
import NodeScrape.Kubelet.Url
import NodeScrape.Node.AddressChoice
import NodeScrape.Text.Blank

/-!
# The kubelet client

The client asks a node's kubelet for its summary. A node without address fails before its scope is
looked at, and in a scope that is done nothing is sent.
-/

namespace NodeScrape.Kubelet

/-- What a client knows about all kubelets. -/
structure Client where
  scheme : String
  /-- The port of nodes that have none of their own. -/
  port : UInt16
  preference : AddressPreference
  bearerToken : Option String
  deriving DecidableEq, Repr

/-- What came of asking a kubelet. -/
structure Fetch where
  /-- The request, if one was sent. -/
  sent : Option Request
  /-- The tick at which there is a result and what it may be; none if there never is one. -/
  result : Option (Nat × List (Except FetchFailure Summary))

namespace Client

/-- The client of a configuration, given what reading the file of its token comes to. -/
def ofConfig (c : Config) (read : Path → Except IoError String) : Except Failure Client := do
  let token ← match c.bearerTokenPath with
    | none => pure none
    | some path => match read path with
      | .ok text => pure (some (String.ofList (Text.trim text.toList)))
      | .error error => throw (.config (.bearerToken path error))
  return ⟨c.kubelet.scheme, c.kubelet.port, .ofList c.kubelet.preferredKinds, token⟩

/-- The address of the summary on a host. -/
def summaryUrl (c : Client) (host : String) (port : UInt16) : String :=
  Kubelet.summaryUrl c.scheme host port

/-- The request for the summary of a node, if the node has a usable address. -/
def request? (c : Client) (node : Node) : Option Request :=
  (c.preference.choose? node).map fun host =>
    ⟨c.scheme, host, node.kubeletPort.getD c.port, c.bearerToken⟩

/-- Asks the kubelet of a node from a tick on, within a scope for which `err` is the reason why it is
done, if it is. -/
def fetch (c : Client) (node : Node) (err : Option DoneReason) (start : Nat) (e : Ending)
    (network : Request → Exchange) : Fetch :=
  match c.request? node, err with
  | none, _ => ⟨none, some (start, [.error (.noUsableAddress c.preference.kinds)])⟩
  | some _, some reason => ⟨none, some (start, [.error (.ofReason reason)])⟩
  | some request, none =>
    let exchange := network request
    let race := Race.run start (exchange.moments) (fun t => exchange.poll request.url e.deadline t) e
    ⟨if exchange = .invalid then none else some request,
      race.map fun (t, outcomes) => (t, outcomes.map fun
        | .ok fetched => fetched
        | .error reason => .error (.ofReason reason))⟩

end Client

end NodeScrape.Kubelet
