import SchemaDiagram.Log
import SchemaDiagram.Schema.Block
import SchemaDiagram.Schema.FieldValue
import SchemaDiagram.Schema.NameRegistry
import SchemaDiagram.Schema.Naming

namespace SchemaDiagram

open SchemaDiagram.Text

structure SourceFile where
  path : String
  content : String
  deriving DecidableEq, Repr

namespace SourceFile

def name (f : SourceFile) : String :=
  String.ofList (baseName f.path.toList)

end SourceFile

namespace Extraction

def skipped (path : String) (b : SchemaBlock) : Log.Entry :=
  { level := .debug
    topic := "extraction"
    message := "Skipping empty schema block in " ++ path ++ " at " ++ Nat.repr b.start }

def ofBlock (cs : List Char) (index : Declaration.Index) (path : String) (lookback : Int)
    (b : SchemaBlock) : Except Log.Entry Model :=
  match parseFields b.body with
  | [] => .error (skipped path b)
  | fields =>
      .ok
        { name := String.ofList (Naming.resolve cs b.start index path.toList lookback)
          filePath := path
          fields }

def results (f : SourceFile) (lookback : Int) : List (Except Log.Entry Model) :=
  let cs := f.content.toList
  if occursIn "Schema".toList cs then
    (SchemaBlock.allIn cs).map (ofBlock cs (Declaration.index cs) f.path lookback)
  else []

def ofFile (f : SourceFile) (lookback : Int) : List Model :=
  (results f lookback).filterMap Except.toOption

def logsOfFile (f : SourceFile) (lookback : Int) : Logs :=
  (results f lookback).filterMap fun
    | .error entry => some entry
    | .ok _ => none

def merge (registry : NameRegistry) : List Model → List Model × NameRegistry
  | [] => ([], registry)
  | m :: ms =>
      let (name, registry) := registry.claim m.name m.filePath
      let (ms, registry) := merge registry ms
      ({ m with name } :: ms, registry)

theorem map_fields_merge (registry : NameRegistry) (ms : List Model) :
    (merge registry ms).1.map (fun m => (m.filePath, m.fields)) =
      ms.map fun m => (m.filePath, m.fields) := by
  induction ms generalizing registry with
  | nil => rfl
  | cons m ms ih => simp [merge, ih]

def ofFiles (files : List SourceFile) (registry : NameRegistry) (lookback : Int) :
    List Model × NameRegistry :=
  merge registry (files.flatMap (ofFile · lookback))

def logsOfFiles (files : List SourceFile) (lookback : Int) : Logs :=
  files.flatMap (logsOfFile · lookback)

end Extraction

end SchemaDiagram
