/-!
# The command line

The program takes one argument, the path of its configuration. It asks for help with `--help` or
`-h`, and everything behind `--` is an argument.
-/

namespace NodeScrape

/-- Why the arguments cannot be used, or are not meant to be. -/
inductive ArgumentProblem where
  /-- Help is asked for. -/
  | help
  /-- An option that there is not, or a second path. -/
  | unknown
  /-- A value for an option that takes none. -/
  | unexpectedValue
  /-- There is no path. -/
  | missing
  deriving DecidableEq, Repr

/-- The code with which the program ends: asking for help is no failure. -/
def ArgumentProblem.exitCode : ArgumentProblem → Nat
  | help => 0
  | _ => 2

/-- What an argument is, by its form. -/
inductive ArgumentForm where
  | path
  | help
  | helpWithValue
  | unknownOption
  /-- What follows holds no options. -/
  | separator
  deriving DecidableEq, Repr

/-- The form of an argument. A lone dash is a path. -/
def argumentForm (argument : String) : ArgumentForm :=
  match argument.toList with
  | '-' :: '-' :: name =>
    if name.isEmpty then .separator
    else if name = "help".toList then .help
    else if "help=".toList.isPrefixOf name then .helpWithValue
    else .unknownOption
  | '-' :: 'h' :: _ => .help
  | '-' :: _ :: _ => .unknownOption
  | _ => .path

/-- Reads arguments from left to right; the first problem decides. -/
def parseArgumentsFrom (path : Option String) (options : Bool) :
    List String → Except ArgumentProblem String
  | [] => match path with
    | some path => .ok path
    | none => .error .missing
  | argument :: rest =>
    match if options then argumentForm argument else .path with
    | .path =>
      if path.isSome then .error .unknown else parseArgumentsFrom (some argument) options rest
    | .help => .error .help
    | .helpWithValue => .error .unexpectedValue
    | .unknownOption => .error .unknown
    | .separator => parseArgumentsFrom path false rest

/-- The path of the configuration among the arguments behind the program's name. -/
def parseArguments (arguments : List String) : Except ArgumentProblem String :=
  parseArgumentsFrom none true arguments

end NodeScrape
