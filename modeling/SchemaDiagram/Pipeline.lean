import SchemaDiagram.Fetching
import SchemaDiagram.ScanResult

/-!
A scan from end to end: the listing of a repository, the files worth reading, their texts, and the
models in them. A listing that fails stops a scan, and so does a wait that cannot begin.
-/

namespace SchemaDiagram

open SchemaDiagram.Text

structure Pipeline where
  selector : Config.Selector := {}
  lookback : Nat := 200
  workers : Nat := 8
  timeout : Option Seconds := none
  deriving DecidableEq, Repr

namespace Pipeline

def supportedOrm : String := "mongoose"

def noSchemasMessage : String :=
  "No Mongoose schemas were found in the repository."

def ofConfig (c : Config) : Pipeline :=
  { selector := c.selector
    lookback := c.lookback
    workers := c.fetch.workers
    timeout := c.fetch.timeout.map .binary }

def isSupported (orm : Option String) : Bool :=
  orm.all fun name => lower (trim name.toList) = supportedOrm.toList

theorem isSupported_supportedOrm : isSupported (some supportedOrm) = true := by
  decide +kernel

inductive Fault where
  | listing (f : Repository.ListingFault)
  | waiting (reason : String)
  deriving DecidableEq, Repr

def Fault.message : Fault → String
  | .listing f => f.message
  | .waiting reason => reason

/-- What a scan gives: its result, whether the repository was listed, the paths whose reading was
started, what it logs, and the names taken so far. -/
structure Outcome where
  result : Except Fault ScanResult
  listed : Bool := true
  started : List String := []
  logs : Logs := []
  registry : NameRegistry

def say (level : Log.Level) (message : String) : Log.Entry :=
  ⟨level, Fetching.topic, message, "MainThread"⟩

def skipped (r : Repository) (orm : String) (registry : NameRegistry) : Outcome :=
  { result := .ok
      { supported := false
        models := []
        message := some ("Diagram generation for \"" ++ orm ++ "\" is coming soon.") }
    listed := false
    logs := [say .info ("Skipping " ++ r.identity ++ ": ORM '" ++ orm ++ "' is not supported")]
    registry }

def selectionLog (s : Selection) (entries : List TreeEntry) : Log.Entry :=
  say .debug
    ("Selected " ++ Nat.repr s.strong.length ++ " strong and " ++ Nat.repr s.weak.length ++
      " weak candidates from " ++ Nat.repr entries.length ++ " entries")

def resultOf (models : List Model) : ScanResult :=
  { supported := true
    models
    message := if models.isEmpty then some noSchemasMessage else none }

def resultLog (r : Repository) (models : List Model) (files : List SourceFile) : Log.Entry :=
  if models.isEmpty then say .info ("No schemas found in " ++ r.identity)
  else
    say .info
      ("Extracted " ++ Nat.repr models.length ++ " models from " ++ Nat.repr files.length ++
        " files")

def limit (p : Pipeline) (timeout : Option Seconds) : Option Seconds :=
  timeout.orElse fun _ => p.timeout

def scan (p : Pipeline) (r : Repository) (timeout : Option Seconds) (registry : NameRegistry) :
    Outcome :=
  let scanning := say .info ("Scanning " ++ r.identity)
  match r.listing with
  | .error f => { result := .error (.listing f), logs := scanning :: r.listingLogs, registry }
  | .ok entries =>
      let selection := p.selector.select entries
      let paths := selection.paths
      let timeout := p.limit timeout
      let started := Fetching.started r.deliver p.workers paths
      let listed := scanning :: r.listingLogs ++ [selectionLog selection entries]
      let done := (Fetching.completed r.deliver p.workers paths).length
      match Fetching.waitFault? timeout done paths.length with
      | some reason =>
          { result := .error (.waiting reason)
            started
            logs := listed ++ started.flatMap r.deliveryLogs
            registry }
      | none =>
          let files := selection.materialise (Fetching.content r.deliver p.workers paths)
          let (models, registry) := Extraction.ofFiles files registry p.lookback
          { result := .ok (resultOf models)
            started
            logs :=
              listed ++ Fetching.logs r p.workers timeout paths ++
                Extraction.logsOfFiles files p.lookback ++ [resultLog r models files]
            registry }

def run (p : Pipeline) (r : Repository) (orm : Option String) (timeout : Option Seconds)
    (registry : NameRegistry) : Outcome :=
  match orm with
  | none => p.scan r timeout registry
  | some name =>
      if isSupported (some name) then p.scan r timeout registry else skipped r name registry

end Pipeline

end SchemaDiagram
