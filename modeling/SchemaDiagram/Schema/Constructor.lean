import SchemaDiagram.Text.Scan

namespace SchemaDiagram

open SchemaDiagram.Text

def nestedArguments? : Nat → List Char → Option (List Char)
  | _, '>' :: cs => some cs
  | 0, _ => none
  | _ + 1, [] => none
  | fuel + 1, c :: cs => if c = '<' then none else nestedArguments? fuel cs

def argumentUnits? : Nat → List Char → Option (List Char)
  | _, '>' :: cs => some cs
  | 0, _ => none
  | _ + 1, [] => none
  | fuel + 1, '<' :: cs => (nestedArguments? 100 cs).bind (argumentUnits? fuel)
  | fuel + 1, _ :: cs => argumentUnits? fuel cs

def typeArguments? : List Char → Option (List Char)
  | '<' :: cs => argumentUnits? 200 cs
  | _ => none

def dropTypeArguments (cs : List Char) : List Char :=
  (typeArguments? cs).getD cs

def callStart? (cs : List Char) : Option (List Char) :=
  literal? "(" (trimLeft (dropTypeArguments (trimLeft cs)))

def constructorCall? (before : Option Char) (cs : List Char) : Option (List Char) := do
  let cs ← keyword? "new" before cs
  let cs ← blanks1? cs
  let cs ← literal? "Schema" (dropLiteral "mongoose." cs)
  callStart? cs

def constructorOfLiteral? (before : Option Char) (cs : List Char) : Option (Unit × List Char) := do
  let cs ← constructorCall? before cs
  match trimLeft cs with
  | '{' :: cs => some ((), '{' :: cs)
  | _ => none

def hasSchema (cs : List Char) : Bool :=
  occursIn "Schema".toList cs &&
    (find? (fun before cs => (constructorCall? before cs).map ((), ·)) cs).isSome

end SchemaDiagram
