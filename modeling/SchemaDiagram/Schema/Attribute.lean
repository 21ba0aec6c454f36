import SchemaDiagram.Schema.Model
import SchemaDiagram.Text.Scan

/-!
Attributes inside the object literal that describes a field. Each one is looked for in the whole
literal, so those of a nested object count as the field's own.
-/

namespace SchemaDiagram.Attribute

open SchemaDiagram.Text

def label? (name : String) (before : Option Char) (cs : List Char) : Option (List Char) := do
  let cs ← keyword? name before cs
  let cs ← literal? ":" (trimLeft cs)
  return trimLeft cs

/-- At most `fuel` more words, each behind a dot. -/
def dottedWords : Nat → List Char → List Char × List Char
  | fuel + 1, '.' :: cs =>
      match word? cs with
      | none => ([], '.' :: cs)
      | some (name, rest) =>
          let (more, rest) := dottedWords fuel rest
          ('.' :: name ++ more, rest)
  | _, cs => ([], cs)

def path? (cs : List Char) : Option (List Char × List Char) := do
  let (first, rest) ← word? cs
  let (more, rest) := dottedWords 3 rest
  return (first ++ more, rest)

def labelled {α : Type} (name : String) (read : List Char → Option (α × List Char)) :
    Recogniser α :=
  fun before cs => (label? name before cs).bind read

def type? : Recogniser (List Char) :=
  labelled "type" fun cs => path? (trimLeft (dropLiteral "[" cs))

def arrayType? : Recogniser Unit :=
  labelled "type" fun cs => (literal? "[" cs).map fun rest => ((), rest)

def ref? : Recogniser (List Char) :=
  labelled "ref" quotedName?

def truth? (cs : List Char) : Option (Unit × List Char) := do
  let rest ← literal? "true" (trimLeft (dropLiteral "[" cs))
  if endsAtWord rest then some ((), rest) else none

def required? : Recogniser Unit :=
  labelled "required" truth?

def bareDefault? (cs : List Char) : Option (List Char × List Char) :=
  let (sign, cs) := match cs with
    | '-' :: cs => (['-'], cs)
    | cs => ([], cs)
  match cs with
  | [] => none
  | c :: _ =>
      if isWord c then
        let inside (d : Char) : Bool := isWord d || d == '.'
        some (sign ++ cs.takeWhile inside, cs.dropWhile inside)
      else none

def default? : Recogniser (List Char) :=
  labelled "default" fun cs => (quoted? cs).orElse fun _ => bareDefault? cs

def items? (cs : List Char) : Option (List Char × List Char) := do
  let cs ← literal? "[" cs
  let inside := cs.takeWhile (· != ']')
  if inside.isEmpty then none
  else do
    let rest ← literal? "]" (cs.dropWhile (· != ']'))
    return (inside, rest)

def enum? : Recogniser (List Char) :=
  labelled "enum" items?

end SchemaDiagram.Attribute
