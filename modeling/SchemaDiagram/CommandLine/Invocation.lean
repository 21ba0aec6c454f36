import SchemaDiagram.CommandLine.Arguments
import SchemaDiagram.Pipeline

namespace SchemaDiagram.CommandLine

def program : String := "schemascope"

def loggingOptions : List OptionSpec :=
  [⟨["-h", "--help"], .help⟩, ⟨["-v", "--verbose"], .flag⟩, ⟨["--log-file"], .text⟩]

def scanOptions : List OptionSpec :=
  loggingOptions ++
    [⟨["--config"], .text⟩, ⟨["--orm"], .text⟩, ⟨["--timeout"], .number⟩, ⟨["--graph"], .flag⟩,
      ⟨["--store"], .text⟩, ⟨["--user"], .text⟩]

def commandNames : List String :=
  ["scan", "github", "serve"]

def mainGrammar : Grammar :=
  { program, options := loggingOptions, operand := .command "command" commandNames }

def scanGrammar : Grammar :=
  { program := program ++ " scan", options := scanOptions, operand := .optional "path" }

def gitHubGrammar : Grammar :=
  { program := program ++ " github"
    options := scanOptions ++ [⟨["--branch"], .text⟩, ⟨["--token"], .text⟩]
    operand := .required "repository" }

def serveOptions : List OptionSpec :=
  loggingOptions ++ [⟨["--host"], .text⟩, ⟨["--port"], .integer⟩, ⟨["--store"], .text⟩]

def serveGrammar : Grammar :=
  { program := program ++ " serve", options := serveOptions, operand := .none }

structure ScanOptions where
  config : Option String := none
  orm : String := Pipeline.supportedOrm
  timeout : Option Binary64 := none
  graph : Bool := false
  store : Option String := none
  user : String := "local"
  deriving DecidableEq, Repr

inductive Command where
  | scan (o : ScanOptions) (path : String)
  | gitHub (o : ScanOptions) (slug branch : String) (token : Option String)
  | serve (host : String) (port : Int) (store : Option String)
  deriving DecidableEq, Repr

structure Invocation where
  verbose : Bool
  logFile : Option String
  command : Command
  deriving DecidableEq, Repr

namespace Invocation

def scanOptionsOf (r : Grammar.Reading) : ScanOptions :=
  { config := r.value? "--config"
    orm := (r.value? "--orm").getD Pipeline.supportedOrm
    timeout := (r.value? "--timeout").bind fun s => Numeral.float? s.toList
    graph := r.has "--graph"
    store := r.value? "--store"
    user := (r.value? "--user").getD "local" }

def operandOf (r : Grammar.Reading) : Option String :=
  r.operands.bind List.head?

def scanOf (r : Grammar.Reading) : Command :=
  .scan (scanOptionsOf r) ((operandOf r).getD ".")

def gitHubOf (r : Grammar.Reading) : Command :=
  .gitHub (scanOptionsOf r) ((operandOf r).getD "") ((r.value? "--branch").getD "main")
    (r.value? "--token")

def serveOf (r : Grammar.Reading) : Command :=
  .serve ((r.value? "--host").getD "127.0.0.1")
    (((r.value? "--port").bind fun s => Numeral.int? s.toList).getD 8000) (r.value? "--store")

def grammarOf : String → Grammar × (Grammar.Reading → Command)
  | "scan" => (scanGrammar, scanOf)
  | "github" => (gitHubGrammar, gitHubOf)
  | _ => (serveGrammar, serveOf)

def ofWords (words : List String) : Except Stop Invocation := do
  let outer ← mainGrammar.read words
  let inside := outer.operands.getD []
  let (grammar, commandOf) := grammarOf (inside.head?.getD "")
  let inner ← grammar.read (inside.drop 1)
  match outer.extras ++ inner.extras with
  | [] =>
      return {
        verbose := outer.has "--verbose" || inner.has "--verbose"
        logFile := (inner.value? "--log-file").orElse fun _ => outer.value? "--log-file"
        command := commandOf inner }
  | extras => mainGrammar.fail (.unrecognized extras)

end Invocation

end SchemaDiagram.CommandLine
