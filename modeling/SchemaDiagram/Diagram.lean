import SchemaDiagram.Schema.Model

namespace SchemaDiagram.Diagram

def cardWidth : Nat := 280
def fieldHeight : Nat := 32
def headerHeight : Nat := 44
def padding : Nat := 8
def gapX : Nat := 120
def gapY : Nat := 60

def cardHeight (m : Model) : Nat :=
  headerHeight + m.fields.length * fieldHeight + padding

def ceilSqrtFrom (n : Nat) : Nat → Nat → Nat
  | 0, k => k
  | fuel + 1, k => if n ≤ k * k then k else ceilSqrtFrom n fuel (k + 1)

def columns (count : Nat) : Nat :=
  max 1 (ceilSqrtFrom count count 0)

structure Node where
  model : Model
  x : Nat
  y : Nat
  deriving Repr

def place (columns index : Nat) (m : Model) : Node :=
  { model := m
    x := index % columns * (cardWidth + gapX)
    y := index / columns * (cardHeight m + gapY) }

def layout (models : List Model) : List Node :=
  models.mapIdx fun index m => place (columns models.length) index m

structure Edge where
  source : String
  target : String
  field : String
  deriving DecidableEq, Repr

def Edge.id (e : Edge) : String :=
  e.source ++ "-" ++ e.field ++ "-" ++ e.target

inductive Fault where
  | unhashable (type : String)
  deriving DecidableEq, Repr

def Fault.message : Fault → String
  | .unhashable type => "unhashable type: '" ++ type ++ "'"

def target? (names : List String) (f : Field) : Except Fault (Option String) :=
  match f.ref with
  | .str s => .ok (if s ≠ "" ∧ s ∈ names then some s else none)
  | .arr (_ :: _) => .error (.unhashable "list")
  | .obj (_ :: _) => .error (.unhashable "dict")
  | _ => .ok none

def edgesOf (names : List String) (m : Model) : List Field → Except Fault (List Edge)
  | [] => .ok []
  | f :: fs => do
      let found ← target? names f
      let rest ← edgesOf names m fs
      return match found with
        | some target => ⟨m.name, target, f.name⟩ :: rest
        | none => rest

def edges (models : List Model) : Except Fault (List Edge) :=
  (models.mapM fun m => edgesOf (models.map Model.name) m m.fields).map List.flatten

def Node.toJson (n : Node) : Json :=
  .obj [("id", .str n.model.name), ("type", .str "model"),
    ("position", .obj [("x", .int n.x), ("y", .int n.y)]),
    ("data", .obj [("label", .str n.model.name), ("filePath", .str n.model.filePath),
      ("fields", .arr (n.model.fields.map Field.toJson))])]

def Edge.toJson (e : Edge) : Json :=
  .obj [("id", .str e.id), ("source", .str e.source), ("target", .str e.target),
    ("label", .str e.field)]

def toJson (models : List Model) : Except Fault Json := do
  let found ← edges models
  return .obj
    [("nodes", .arr ((layout models).map Node.toJson)), ("edges", .arr (found.map Edge.toJson))]

end SchemaDiagram.Diagram
