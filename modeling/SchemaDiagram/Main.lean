import SchemaDiagram.CommandLine.Run
import Std.Time.DateTime.Timestamp

/-!
The program. It takes from the disk what a command line names, runs it on that, and hands back what
came of it. No network is in reach.
-/

namespace SchemaDiagram.Program

open CommandLine

abbrev Taking := StateT FileTree IO

def ensureDirectory (place : Place) : Taking Unit :=
  modify fun t =>
    match t.find? place with
    | some (.directory _) => t
    | _ => FileTree.insert .empty place t

def bytesAt (path : String) : IO Bytes := do
  try
    return (← IO.FS.readBinFile path).toList
  catch _ => return []

partial def take (deep : Bool) (place : Place) : Taking Unit := do
  match ← (IO.FS.realPath place.text).toBaseIO with
  | .error _ => pure ()
  | .ok found =>
      let real := (Path.ofText found.toString).names
      if real != place then
        modify (FileTree.insert (.link (Place.text real)) place)
        take false real
      else if ← found.isDir then
        ensureDirectory place
        if deep then
          for entry in ← found.readDir do
            let inside := place ++ [entry.fileName]
            modify (FileTree.insert (.file []) inside)
            take (!LocalRepository.skippedNames.contains entry.fileName) inside
      else
        let content ← bytesAt place.text
        modify (FileTree.insert (.file content) place)

def placesOn (standing : Place) (p : Path) : List Place :=
  (List.range (p.names.length + 1)).map fun n =>
    { p with names := p.names.take n : Path }.place standing

def takePath (standing : Place) (home : Option String) (deep : Bool) (path : String) :
    Taking Unit := do
  match (Path.ofText path).expandHome home with
  | none => pure ()
  | some p =>
      for place in placesOn standing (p.append (Path.ofText Config.fileName)) do
        take false place
      if deep then
        match (← get).resolve standing p with
        | .ok found => take true found.names
        | .error _ => pure ()

def inputPaths (i : Invocation) : List (String × Bool) :=
  match i.command with
  | .scan o path => [(path, true), (o.config.getD path, false)]
  | .gitHub o _ _ _ => [(o.config.getD "", false)]
  | .serve _ _ _ => []

def outputPaths (i : Invocation) : List String :=
  i.logFile.toList ++
    match i.command with
    | .scan o _ => o.store.toList
    | .gitHub o _ _ _ => o.store.toList
    | .serve _ _ _ => []

def takeAll (standing : Place) (home : Option String) (i : Invocation) : Taking Unit := do
  ensureDirectory standing
  for (path, deep) in inputPaths i do
    takePath standing home deep path
  for path in outputPaths i do
    takePath standing none false path

def environment : IO (List (String × String)) :=
  (Config.homeVariable :: Config.tokenVariables).filterMapM fun name =>
    return (← IO.getEnv name).map fun value => (name, value)

def now : IO Timestamp :=
  return ⟨(← Std.Time.Timestamp.now).toNanosecondsSinceUnixEpoch.val.fdiv 1000⟩

def noNetwork : Http.Network := fun _ => .unreachable "no network"

def surroundings (i : Invocation) : IO Surroundings := do
  let standing := (Path.ofText (← IO.currentDir).toString).names
  let environment ← environment
  let (_, tree) ← (takeAll standing (environment.lookup Config.homeVariable) i).run .empty
  return { tree, standing, environment, network := noNetwork, clock := ← now }

def contentAt? (s : Surroundings) (path : String) : Option Bytes :=
  (s.tree.contentAt s.standing (logPath s.standing path)).toOption

def writeBack (before after : Surroundings) (path : String) : IO Unit := do
  match contentAt? after path with
  | none => pure ()
  | some content =>
      if contentAt? before path != some content then
        let p := logPath after.standing path
        IO.FS.createDirAll p.parent.text
        IO.FS.writeBinFile p.text ⟨content.toArray⟩

def servingText (s : Serving) : String :=
  "http://" ++ s.host ++ ":" ++ String.ofList (intText s.port)

def hand (r : Report) : IO UInt32 := do
  IO.print r.stdout
  IO.eprint r.stderr
  match r.serving with
  | none => pure ()
  | some s => IO.println (servingText s)
  return UInt32.ofNat r.exitCode

def perform (words : List String) (i : Invocation) : IO UInt32 := do
  let before ← surroundings i
  match run before words with
  | .error f =>
      IO.eprintln f.message
      return 1
  | .ok (report, after, _) =>
      for path in outputPaths i do
        writeBack before after path
      hand report

end SchemaDiagram.Program

open SchemaDiagram SchemaDiagram.CommandLine in
def main (words : List String) : IO UInt32 :=
  match Invocation.ofWords words with
  | .ok i => Program.perform words i
  | .error .help => Program.hand {}
  | .error (.fault grammar f) => Program.hand (usageReport grammar f)
