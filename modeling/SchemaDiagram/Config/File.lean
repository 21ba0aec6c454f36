import SchemaDiagram.Config.Document
import SchemaDiagram.FileTree.Access
import SchemaDiagram.Yaml.Construction

namespace SchemaDiagram.Config

open SchemaDiagram.Text SchemaDiagram.Yaml

variable [Platform]

inductive Fault where
  | access (f : FileTree.Fault)
  | encoding (f : Utf8.Fault)
  | malformed (file : String)
  | yaml (f : Yaml.Fault)
  | document (f : DocumentFault)
  deriving DecidableEq, Repr

def Fault.message : Fault → String
  | .access f => f.message
  | .encoding f => f.message
  | .malformed file => "Failed to parse " ++ file ++ ": " ++ Yaml.Fault.malformed.message
  | .yaml f => f.message
  | .document f => f.message

inductive FaultClass where
  | settings
  | value
  | other
  deriving DecidableEq, Repr

def Fault.faultClass : Fault → FaultClass
  | .access (.resolve .embeddedNull) => .value
  | .access _ => .other
  | .encoding _ => .value
  | .malformed _ => .settings
  | .yaml f => if f.isValueFault then .value else .other
  | .document .noMapping => .settings
  | .document (.number .beyondText) => .value
  | .document (.number .beyondFloat) => .other

def valueDepth : Nat := 4

def valueOf (file : String) (cs : List Char) : Except Fault Value :=
  if (trim cs).isEmpty then .ok .null
  else match load valueDepth cs with
    | .ok v => .ok v
    | .error .malformed => .error (.malformed file)
    | .error f => .error (.yaml f)

def ofText (root file : String) (environment : List (String × String)) (cs : List Char) :
    Except Fault Config := do
  let v ← valueOf file cs
  (ofValue root environment v).mapError .document

def ofBytes (root file : String) (environment : List (String × String)) (bs : Bytes) :
    Except Fault Config := do
  let cs ← (Utf8.decode bs).mapError .encoding
  ofText root file environment (plainNewlines cs)

def homeVariable : String := "HOME"

def filePath (tree : FileTree) (standing : Place) (p : Path) : Except FileTree.Fault Path := do
  if ← tree.isDirectoryAt standing p then return p.append (Path.ofText fileName) else return p

def read (tree : FileTree) (standing : Place) (environment : List (String × String)) (p : Path) :
    Except Fault Config := do
  let p ← match p.expandHome (environment.lookup homeVariable) with
    | some p => .ok p
    | none => .error (.access (.resolve .unknownHome))
  let p ← (filePath tree standing p).mapError .access
  let file ← resolved standing p
  let root ← resolved [] file.parent
  if ← (tree.existsAt [] file).mapError .access then
    let content ← (tree.contentAt [] file).mapError .access
    ofBytes root.text file.name environment content
  else return defaults root.text environment
where
  resolved (standing : Place) (p : Path) : Except Fault Path :=
    (tree.resolve standing p).mapError fun f => .access (.resolve f)

end SchemaDiagram.Config
