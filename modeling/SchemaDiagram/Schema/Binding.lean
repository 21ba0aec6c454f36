import SchemaDiagram.Text.Scan

namespace SchemaDiagram.Binding

open SchemaDiagram.Text

def declarators : List String :=
  ["const", "let", "var"]

def keywordEnds (cs : List Char) : List (List Char) :=
  match declarators.findSome? fun w => literal? w cs with
  | some rest => [rest]
  | none =>
      match literal? "export" cs with
      | none => []
      | some rest =>
          let body := trimLeft rest
          let blanks := rest.length - body.length
          let second := match declarators.findSome? fun w => literal? w body with
            | some behind => if blanks = 0 then [] else [behind]
            | none => []
          second ++ if 2 ≤ blanks then [rest.drop (blanks - 1)] else []

def isAnnotation (c : Char) : Bool :=
  isWord c || c = '.' || c = '<' || c = '>' || c = '[' || c = ']' || c = '|' || c = ',' || c = ' '

def isTypeAnnotation (cs : List Char) : Bool :=
  let core := trim cs
  if core.isEmpty then cs.contains ' ' else core.all isAnnotation

def endsBinding (cs : List Char) : Bool :=
  match trimLeft cs with
  | '=' :: rest => rest.all isBlank
  | ':' :: rest =>
      isTypeAnnotation (rest.takeWhile (· != '=')) &&
        (match rest.dropWhile (· != '=') with
          | [] => false
          | _ :: rest => rest.all isBlank)
  | _ => false

def variableBehind? (cs : List Char) : Option (List Char) := do
  let cs ← blanks1? cs
  let (name, rest) ← word? cs
  if endsBinding rest then some name else none

def binding? : Recogniser (List Char) := fun before cs =>
  if startsWord before then
    ((keywordEnds cs).findSome? variableBehind?).map fun name => (name, [])
  else none

def slice (cs : List Char) (low : Nat) (high : Int) : List Char :=
  let high := if high < 0 then (high + cs.length).toNat else high.toNat
  (cs.take high).drop low

def find? (cs : List Char) (start lookback : Int) : Option (List Char) :=
  Text.find? binding? (slice cs (start - lookback).toNat start)

end SchemaDiagram.Binding
