import SchemaDiagram.Json.Reader
import SchemaDiagram.Json.Writer

namespace SchemaDiagram.Json

variable [Platform]

inductive Limit where
  | digits
  | depth
  deriving DecidableEq, Repr

def Limit.text : Limit → String
  | .digits =>
      "Exceeds the limit (4300 digits) for integer string conversion; " ++
        "use sys.set_int_max_str_digits() to increase the limit"
  | .depth => "maximum recursion depth exceeded while calling a Python object"

def passed? (depth : Nat) : Json → Option Limit
  | .int n => if Numeral.digitLimit < (natText n.natAbs).length then some .digits else none
  | .arr items =>
      match depth with
      | 0 => some .depth
      | depth + 1 => passedIn? depth items
  | .obj members =>
      match depth with
      | 0 => some .depth
      | depth + 1 => passedUnder? depth members
  | _ => none
where
  passedIn? (depth : Nat) : List Json → Option Limit
    | [] => none
    | v :: vs => (v.passed? depth).or (passedIn? depth vs)
  passedUnder? (depth : Nat) : List (String × Json) → Option Limit
    | [] => none
    | (_, v) :: ms => (v.passed? depth).or (passedUnder? depth ms)

def written (v : Json) : Except Limit (List Char) :=
  match v.passed? Platform.jsonDepth with
  | some l => .error l
  | none => .ok v.pretty

theorem written_eq_ok_iff {v : Json} {cs : List Char} :
    v.written = .ok cs ↔ v.passed? Platform.jsonDepth = none ∧ v.pretty = cs := by
  cases h : v.passed? Platform.jsonDepth <;> simp [written, h]

end SchemaDiagram.Json
