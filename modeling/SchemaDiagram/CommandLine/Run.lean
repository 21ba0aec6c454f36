import SchemaDiagram.CommandLine.Invocation
import SchemaDiagram.Diagram
import SchemaDiagram.Json.Writer
import SchemaDiagram.Surroundings

namespace SchemaDiagram.CommandLine

variable [Platform]

structure Serving where
  host : String
  port : Int
  store : Option String
  deriving DecidableEq, Repr

structure Report where
  exitCode : Nat := 0
  stdout : String := ""
  stderr : String := ""
  serving : Option Serving := none
  deriving DecidableEq, Repr

inductive Failure where
  | file (f : FileTree.Fault)
  | config (f : Config.Fault)
  | scan (f : Pipeline.Fault)
  | store (f : DiagramStore.Fault)
  | diagram (f : Diagram.Fault)
  deriving Repr

def Failure.message : Failure → String
  | .file f => f.message
  | .config f => f.message
  | .scan f => f.message
  | .store f => f.message
  | .diagram f => f.message

def isShown (verbose : Bool) (e : Log.Entry) : Bool :=
  verbose || e.level != .debug

def consoleLine (e : Log.Entry) : String :=
  "[" ++ program ++ "] " ++ e.level.name ++ " " ++ e.message ++ "\n"

def consoleText (verbose : Bool) (logs : Logs) : String :=
  String.join ((logs.filter (isShown verbose)).map consoleLine)

def logTime (t : Timestamp) : List Char :=
  let cs := t.text.toList
  cs.take 10 ++ ' ' :: (cs.drop 11).take 8 ++ ',' ::
    Timestamp.padded 3 ((t.microseconds.fmod Timestamp.secondLength).fdiv 1000)

def logLine (t : Timestamp) (e : Log.Entry) : String :=
  String.ofList (logTime t) ++ " " ++ e.level.name ++ " " ++ program ++ "." ++ e.topic ++ " [" ++
    e.thread ++ "]: " ++ e.message ++ "\n"

def logPath (standing : Place) (file : String) : Path :=
  (Path.ofText file).straightened standing

def writeLogs (s : Surroundings) (file : String) (logs : Logs) :
    Except FileTree.Fault Surroundings := do
  let content := Utf8.encode (String.join (logs.map (logLine s.clock))).toList
  let tree ← s.tree.appendContent s.standing (logPath s.standing file) content
  return { s with tree }

def openLog (s : Surroundings) (file : String) : Except FileTree.Fault Surroundings := do
  let tree ← (s.tree.makeDirectories s.standing (Path.ofText file).parent).mapError Prod.fst
  writeLogs { s with tree } file []

inductive Preparation where
  | ready (c : Config) (source : Source)
  | refused (message : String)

def prepareScan (s : Surroundings) (o : ScanOptions) (path : String) :
    Except Failure Preparation :=
  match s.readConfig (Path.ofText (o.config.getD path)) with
  | .error f => if f.faultClass = .other then .error (.config f) else .ok (.refused f.message)
  | .ok c =>
      match s.directory c path with
      | .ok source => .ok (.ready c source)
      | .error .embeddedNull => .ok (.refused FileTree.ResolveFault.embeddedNull.message)
      | .error f => .error (.file (.resolve f))

def prepareGitHub (s : Surroundings) (o : ScanOptions) (slug branch : String)
    (token : Option String) : Except Failure Preparation :=
  match s.readConfig (Path.ofText (o.config.getD "")) with
  | .error f => if f.faultClass = .other then .error (.config f) else .ok (.refused f.message)
  | .ok c =>
      match Source.ofSlug? c slug branch token with
      | some source => .ok (.ready c source)
      | none => .ok (.refused (GitHubRepository.badSlug slug))

def keepModels (s : Surroundings) (o : ScanOptions) (source : Source) (r : ScanResult) :
    Except Failure Surroundings :=
  match o.store with
  | none => .ok s
  | some file =>
      if r.found then do
        let store ← (DiagramStore.load s.tree s.standing (Path.ofText file)).mapError .store
        let (store, s) := s.keep store source.identity o.user r.models
        let (_, s) ← (s.persist store).mapError fun (f, _) => .store f
        return s
      else .ok s

def resultJson (graph : Bool) (r : ScanResult) : Except Failure Json :=
  if graph then
    match Diagram.toJson r.models, r.toJson with
    | .error f, _ => .error (.diagram f)
    | .ok g, .obj members => .ok (.obj (members ++ [("graph", g)]))
    | .ok _, v => .ok v
  else .ok r.toJson

structure ScanJob where
  name : String
  options : ScanOptions
  verbose : Bool
  logFile : Option String

abbrev Result := Report × Surroundings × List Http.Request

def runScan (s : Surroundings) (job : ScanJob) : Preparation → Except Failure Result
  | .refused message => .ok ({ exitCode := 1, stderr := message ++ "\n" }, s, [])
  | .ready c source => do
      let o := job.options
      let outcome := s.scan c source o.orm o.timeout
      let requests := source.requests outcome
      let console := consoleText job.verbose outcome.logs
      let s ← match job.logFile with
        | none => .ok s
        | some file => (writeLogs s file outcome.logs).mapError .file
      match outcome.result with
      | .error (.listing (.unavailable reason)) =>
          let complaint := program ++ " " ++ job.name ++ " failed: " ++ reason ++ "\n"
          return ({ exitCode := 1, stderr := console ++ complaint }, s, requests)
      | .error f => throw (.scan f)
      | .ok r =>
          let s ← keepModels s o source r
          let v ← resultJson o.graph r
          return ({ stdout := String.ofList v.pretty ++ "\n"
                    stderr := console ++ (r.message.map (· ++ "\n")).getD "" }, s, requests)

def perform (s : Surroundings) (i : Invocation) : Except Failure Result :=
  match i.command with
  | .serve host port store =>
      .ok ({ serving := some ⟨host, port, store.map fun p => (Path.ofText p).text⟩ }, s, [])
  | .scan o path =>
      (prepareScan s o path).bind (runScan s ⟨"scan", o, i.verbose, i.logFile⟩)
  | .gitHub o slug branch token =>
      (prepareGitHub s o slug branch token).bind (runScan s ⟨"github", o, i.verbose, i.logFile⟩)

def usageReport (grammar : String) (f : Fault) : Report :=
  { exitCode := 2, stderr := grammar ++ ": error: " ++ f.message ++ "\n" }

def run (s : Surroundings) (words : List String) : Except Failure Result :=
  match Invocation.ofWords words with
  | .error .help => .ok ({}, s, [])
  | .error (.fault grammar f) => .ok (usageReport grammar f, s, [])
  | .ok i =>
      match i.logFile with
      | none => perform s i
      | some file => ((openLog s file).mapError .file).bind fun s => perform s i

end SchemaDiagram.CommandLine
