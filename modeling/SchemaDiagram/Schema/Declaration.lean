import SchemaDiagram.Json.Basic
import SchemaDiagram.Schema.Constructor

namespace SchemaDiagram.Declaration

open SchemaDiagram.Text

def modelCall? (cs : List Char) : Option (List Char × List Char) := do
  let cs ← literal? "model" (dropLiteral "mongoose." cs)
  let cs ← callStart? cs
  quotedName? (trimLeft cs)

def registration? : Recogniser (List Char × List Char) := fun before cs => do
  if !startsWord before then none
  let (model, cs) ← modelCall? cs
  let cs ← literal? "," (trimLeft cs)
  let (name, cs) ← word? (trimLeft cs)
  return ((name, model), cs)

def bindingKeyword? (before : Option Char) (cs : List Char) : Option (List Char) :=
  if startsWord before then
    ["const", "let", "var", "export"].findSome? fun w => literal? w cs
  else none

def assignment? : Recogniser (List Char × List Char) := fun before cs => do
  let cs ← bindingKeyword? before cs
  let cs ← blanks1? cs
  let (name, cs) ← word? cs
  let cs ← literal? "=" (trimLeft cs)
  let (model, cs) ← modelCall? (trimLeft cs)
  return ((name, model), cs)

abbrev Index := List (String × String)

def record (index : Index) (declared : List Char × List Char) : Index :=
  Json.put (String.ofList declared.1) (String.ofList declared.2) index

def declaredBy (read : Recogniser (List Char × List Char)) (cs : List Char) :
    List (List Char × List Char) :=
  (findAll read cs).map Prod.snd

def index (cs : List Char) : Index :=
  (declaredBy assignment? cs).foldl record ((declaredBy registration? cs).foldl record [])

end SchemaDiagram.Declaration
