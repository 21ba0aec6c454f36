import SchemaDiagram.Text.Blank

namespace SchemaDiagram

inductive FieldType where
  | string
  | number
  | boolean
  | date
  | buffer
  | objectId
  | mixed
  | map
  | decimal128
  | uuid
  | bigInt
  deriving DecidableEq, Repr, Inhabited

namespace FieldType

open SchemaDiagram.Text

def all : List FieldType :=
  [.string, .number, .boolean, .date, .buffer, .objectId, .mixed, .map, .decimal128, .uuid, .bigInt]

theorem mem_all (t : FieldType) : t ∈ all := by
  cases t <;> decide

def name : FieldType → String
  | .string => "String"
  | .number => "Number"
  | .boolean => "Boolean"
  | .date => "Date"
  | .buffer => "Buffer"
  | .objectId => "ObjectId"
  | .mixed => "Mixed"
  | .map => "Map"
  | .decimal128 => "Decimal128"
  | .uuid => "UUID"
  | .bigInt => "BigInt"

def ofName? (cs : List Char) : Option FieldType :=
  all.find? (·.name.toList == cs)

theorem ofName?_name (t : FieldType) : ofName? t.name.toList = some t := by
  cases t <;> decide

def qualifiers : List String :=
  ["mongoose.Schema.Types.", "mongoose.Types.", "mongoose.", "Schema.Types.", "Schema.", "Types."]

def dropQualifier (cs : List Char) : List Char :=
  (qualifiers.findSome? fun q => q.toList.isPrefixOf? cs).getD cs

def normalize (cs : List Char) : List Char :=
  dropQualifier (trim cs)

def lookup? (cs : List Char) : Option FieldType :=
  ofName? (normalize cs)

def coerce (cs : List Char) : FieldType :=
  (lookup? cs).getD .mixed

theorem coerce_name (t : FieldType) : coerce t.name.toList = t := by
  cases t <;> decide

end FieldType

end SchemaDiagram
