import NodeScrape.CommandLine
import NodeScrape.Config.Validate
import NodeScrape.Kubelet.Client

/-!
# Launching the program

The program reads its arguments, then its configuration, then what the client needs. The first
failure ends it.
-/

namespace NodeScrape

/-- How far a launch of the program comes. -/
inductive Launch where
  /-- The arguments cannot be used, or ask for help. -/
  | usage (problem : ArgumentProblem)
  /-- The configuration at a path cannot be used. -/
  | noConfig (path : Path) (failure : Failure)
  /-- The service cannot be built. -/
  | noService (failure : Failure)
  /-- The service can be started. -/
  | ready (config : Config) (client : Kubelet.Client)
  deriving DecidableEq

namespace Launch

/-- What becomes of the program when what it reads is a configuration. -/
def ofConfig {m : Type → Type} [Monad m] (read : Path → m (Except IoError String))
    (config : Config) : m Launch := do
  let token ← match config.bearerTokenPath with
    | some path => read path
    | none => pure (.ok "")
  match Kubelet.Client.ofConfig config fun _ => token with
  | .ok client => return .ready config client
  | .error failure => return .noService failure

/-- Launches the program with arguments, where `read` reads a file. -/
def ofArguments {m : Type → Type} [Monad m] (read : Path → m (Except IoError String))
    (arguments : List String) : m Launch := do
  match parseArguments arguments with
  | .error problem => return .usage problem
  | .ok argument =>
    let path : Path := ⟨argument⟩
    match Config.ofFile path (← read path) with
    | .error error => return .noConfig path (.config error)
    | .ok config => ofConfig read config

/-- What the program says when it breaks off. -/
def complaint? : Launch → Option String
  | noConfig path failure => some ("load config " ++ path.text ++ " failed, err: " ++ failure.message)
  | noService failure => some ("build sys failed, err: " ++ failure.message)
  | _ => none

/-- The code with which the program ends, unless it starts the service. -/
def exitCode? : Launch → Option Nat
  | usage problem => some problem.exitCode
  | noConfig .. => some 101
  | noService _ => some 101
  | ready .. => none

end Launch

/-- What is told about a service that ended with a failure. -/
def stopMessage (failure : Failure) : String := "sys stopped with error: " ++ failure.message

end NodeScrape
