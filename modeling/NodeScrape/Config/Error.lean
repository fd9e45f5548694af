import NodeScrape.Files.IoError
import NodeScrape.Files.Path
import NodeScrape.Yaml.Read

/-!
# Failures of the configuration

Why a configuration cannot be used.
-/

namespace NodeScrape

/-- Why a configuration cannot be used. -/
inductive ConfigError where
  /-- Its file cannot be read. -/
  | read (path : Path) (error : IoError)
  /-- Its text does not decode. -/
  | parse (path : Path) (error : Yaml.Error)
  /-- A length of time is zero. -/
  | zeroDuration (field : String)
  /-- A node has no name. -/
  | emptyNodeName (index : Nat)
  /-- Two nodes have one name. -/
  | duplicateNode (name : String)
  /-- The file of the bearer token cannot be read. -/
  | bearerToken (path : Path) (error : IoError)
  deriving DecidableEq

/-- The sentence for a failure of the configuration. -/
def ConfigError.message : ConfigError → String
  | read path error => "read " ++ Text.quoted path.text ++ " failed: " ++ error.message
  | parse path error => "parse " ++ Text.quoted path.text ++ " failed: " ++ error.message
  | zeroDuration field => field ++ " must be greater than zero"
  | emptyNodeName index => "node #" ++ Nat.repr index ++ " has no name"
  | duplicateNode name => "node " ++ name ++ " is listed twice"
  | bearerToken path error =>
    "read bearer token " ++ Text.quoted path.text ++ " failed: " ++ error.message

end NodeScrape
