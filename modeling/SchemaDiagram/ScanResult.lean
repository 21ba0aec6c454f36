import SchemaDiagram.Schema.Model

namespace SchemaDiagram

structure ScanResult where
  supported : Bool
  models : List Model
  message : Option String := none
  deriving Repr

namespace ScanResult

def found (r : ScanResult) : Bool :=
  !r.models.isEmpty

theorem found_iff {r : ScanResult} : r.found = true ↔ r.models ≠ [] := by
  simp [found]

def toJson (r : ScanResult) : Json :=
  .obj ([("supported", .bool r.supported), ("models", .arr (r.models.map Model.toJson))] ++
    match r.message with
    | some message => if message.isEmpty then [] else [("message", .str message)]
    | none => [])

end ScanResult

end SchemaDiagram
