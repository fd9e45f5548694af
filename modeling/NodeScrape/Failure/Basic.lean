import NodeScrape.Config.Error
import NodeScrape.Failure.Aggregate
import NodeScrape.Net.SocketAddress

/-!
# Failures of the program

Everything that can keep the program or one of its cycles from doing its work.
-/

namespace NodeScrape

/-- A failure of the program or of a cycle. -/
inductive Failure where
  /-- The nodes could not be listed; the contexts of the reason, the outermost first. -/
  | listNodes (chain : List String)
  /-- Some nodes failed. -/
  | nodes (aggregate : AggregateFailure)
  /-- The configuration cannot be used. -/
  | config (error : ConfigError)
  /-- The client for requests could not be made. -/
  | httpClient (detail : String)
  /-- The server could not be bound. -/
  | httpServe (address : Net.SocketAddress) (detail : String)
  /-- A file or socket failed. -/
  | io (error : IoError)
  deriving DecidableEq

namespace Failure

/-- The failures of nodes, none for a failure of the whole cycle. -/
def nodeFailures : Failure → List NodeFailure
  | nodes aggregate => aggregate.causes
  | _ => []

/-- Whether the nodes could not be listed. -/
def isListing : Failure → Bool
  | listNodes _ => true
  | _ => false

/-- The sentence for a failure. -/
def message : Failure → String
  | listNodes chain => "unable to list nodes: " ++ String.intercalate ": " chain
  | nodes aggregate => aggregate.message
  | config error => "Config error: " ++ error.message
  | httpClient detail => "Http client error: " ++ detail
  | httpServe address detail => "Http serve on " ++ address.text ++ " failed: " ++ detail
  | io error => "Io error: " ++ error.parts

end Failure

end NodeScrape
