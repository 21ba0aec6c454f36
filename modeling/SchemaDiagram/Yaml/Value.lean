import SchemaDiagram.Encoding.Utf8
import SchemaDiagram.Json.Basic

namespace SchemaDiagram.Yaml

/-- Of pairs and of sets no more is kept than is ever asked for. `unseen` stands for what lies too
deep. -/
inductive Value where
  | null
  | bool (b : Bool)
  | int (n : Int)
  | float (x : Binary64)
  | str (s : String)
  | bytes (bs : Bytes)
  | timestamp
  | list (items : List Value)
  | pairs (count : Nat)
  | map (entries : List (Value × Value))
  | set (isEmpty : Bool)
  | unseen
  deriving Repr, Inhabited

namespace Value

def lookup (name : String) (entries : List (Value × Value)) : Value :=
  (entries.reverse.findSome? fun
    | (.str k, v) => if k = name then some v else none
    | _ => none).getD .null

def isTruthy : Value → Bool
  | .null => false
  | .bool b => b
  | .int n => n != 0
  | .float x => !x.isZero
  | .str s => !s.isEmpty
  | .bytes bs => !bs.isEmpty
  | .timestamp => true
  | .list items => !items.isEmpty
  | .pairs count => count != 0
  | .map entries => !entries.isEmpty
  | .set isEmpty => !isEmpty
  | .unseen => true

def ofJson : Json → Value
  | .null => .null
  | .bool b => .bool b
  | .int n => .int n
  | .float x => .float x
  | .str s => .str s
  | .arr items => .list (ofItems items)
  | .obj members => .map (ofMembers members)
where
  ofItems : List Json → List Value
    | [] => []
    | v :: vs => ofJson v :: ofItems vs
  ofMembers : List (String × Json) → List (Value × Value)
    | [] => []
    | (k, v) :: ms => (.str k, ofJson v) :: ofMembers ms

end Value

end SchemaDiagram.Yaml
