import SchemaDiagram.Json.Display
import SchemaDiagram.Schema.FieldType

namespace SchemaDiagram

/-- A field of a model. What it refers to, its default and its allowed values are texts when they
come from source code, and any values when they come from a stored diagram; null where there are
none. -/
structure Field where
  name : String
  type : FieldType := .mixed
  required : Bool := false
  isArray : Bool := false
  ref : Json := .null
  defaultValue : Json := .null
  enumValues : Option (List Json) := none
  deriving Repr, Inhabited

structure Model where
  name : String
  filePath : String
  fields : List Field
  deriving Repr, Inhabited

namespace Field

def optionalMember (name : String) : Json → List (String × Json)
  | .null => []
  | v => [(name, v)]

def listJson : Option (List Json) → Json
  | none => .null
  | some items => .arr items

def toJson (f : Field) : Json :=
  .obj ([("name", .str f.name), ("type", .str f.type.name), ("required", .bool f.required),
      ("isArray", .bool f.isArray)] ++
    optionalMember "ref" f.ref ++ optionalMember "defaultValue" f.defaultValue ++
    optionalMember "enumValues" (listJson f.enumValues))

def textMember (name : String) (v : Json) : String :=
  ((v.get? name).map Json.display).getD ""

def flagMember (name : String) (v : Json) : Bool :=
  (v.get? name).any Json.isTruthy

def listMember? (name : String) (v : Json) : Option (List Json) :=
  match v.get? name with
  | some (.arr items) => some items
  | _ => none

def ofJson (v : Json) : Field :=
  { name := textMember "name" v
    type := .coerce (textMember "type" v).toList
    required := flagMember "required" v
    isArray := flagMember "isArray" v
    ref := (v.get? "ref").getD .null
    defaultValue := (v.get? "defaultValue").getD .null
    enumValues := listMember? "enumValues" v }

end Field

namespace Model

def toJson (m : Model) : Json :=
  .obj [("name", .str m.name), ("filePath", .str m.filePath),
    ("fields", .arr (m.fields.map Field.toJson))]

def isObject : Json → Bool
  | .obj _ => true
  | _ => false

def objectsIn : Option Json → List Json
  | some (.arr items) => items.filter isObject
  | _ => []

def ofJson (v : Json) : Model :=
  { name := Field.textMember "name" v
    filePath := Field.textMember "filePath" v
    fields := (objectsIn (v.get? "fields")).map Field.ofJson }

end Model

end SchemaDiagram
