import SchemaDiagram.Schema.Attribute
import SchemaDiagram.Schema.Bracket
import SchemaDiagram.Text.Lines

namespace SchemaDiagram

open SchemaDiagram.Text

def jsonText (cs : List Char) : Json :=
  .str (String.ofList cs)

def stripQuotes (cs : List Char) : List Char :=
  dropRightWhile isQuote (cs.dropWhile isQuote)

def enumItems (inside : List Char) : List (List Char) :=
  ((splitAt ',' inside).map fun piece => trim (stripQuotes (trim piece))).filter (!·.isEmpty)

def Field.ofObject (cs : List Char) : Field :=
  let type := find? Attribute.type? cs
  let ref := find? Attribute.ref? cs
  { name := ""
    type := match type, ref with
      | some t, _ => .coerce t
      | none, some _ => .objectId
      | none, none => .mixed
    required := (find? Attribute.required? cs).isSome
    isArray := (find? Attribute.arrayType? cs).isSome
    ref := (ref.map jsonText).getD .null
    defaultValue := ((find? Attribute.default? cs).map jsonText).getD .null
    enumValues := (find? Attribute.enum? cs).map fun inside => (enumItems inside).map jsonText }

inductive CodeState where
  | code
  | quoted (quote : Char)
  | escaped (quote : Char)
  deriving DecidableEq, Repr

def beforeComment? : CodeState → List Char → Option (List Char)
  | _, [] => none
  | .escaped q, c :: cs => (beforeComment? (.quoted q) cs).map (c :: ·)
  | .quoted q, c :: cs =>
      let next := if c = '\\' then .escaped q else if c = q then .code else .quoted q
      (beforeComment? next cs).map (c :: ·)
  | .code, c :: cs =>
      if isQuote c || c = '\x60' then (beforeComment? (.quoted c) cs).map (c :: ·)
      else if c = '/' && cs.head? = some '/' then some []
      else (beforeComment? .code cs).map (c :: ·)

def dropTrailingComment (cs : List Char) : List Char :=
  let lastLine := (cs.reverse.takeWhile (· != '\n')).reverse
  let above := cs.take (cs.length - lastLine.length)
  match beforeComment? .code lastLine with
  | none => cs
  | some kept => trimRight (above ++ kept)

def bracketed? (cs : List Char) : Option (List Char) :=
  if cs.head? = some '[' && cs.getLast? = some ']' then some (cs.drop 1).dropLast else none

def Field.ofValue (value : List Char) : Field :=
  let trimmed := dropTrailingComment (trim value)
  match FieldType.lookup? trimmed with
  | some t => { name := "", type := t }
  | none =>
      match bracketed? trimmed with
      | some inside =>
          let inside := trim inside
          match FieldType.lookup? inside with
          | some t => { name := "", type := t, isArray := true }
          | none =>
              if inside.head? = some '{' then { Field.ofObject inside with isArray := true }
              else { name := "", isArray := true }
      | none => if trimmed.head? = some '{' then Field.ofObject trimmed else { name := "" }

def behindBlockComment? : List Char → Option (List Char)
  | [] => none
  | '*' :: '/' :: cs => some cs
  | _ :: cs => behindBlockComment? cs

def behindComment? : List Char → Option (List Char)
  | '/' :: '/' :: cs => some (cs.dropWhile (· != '\n'))
  | '/' :: '*' :: cs => behindBlockComment? cs
  | _ => none

def dropComments : Nat → List Char → List Char
  | 0, cs => cs
  | fuel + 1, cs =>
      match behindComment? (trimLeft cs) with
      | none => cs
      | some rest => trimLeft (dropComments fuel rest)

def dropLeadingComments (cs : List Char) : List Char :=
  dropComments cs.length cs

def keyValue? (cs : List Char) : Option (List Char × List Char) := do
  let (name, rest) ← word? ((quote? cs).getD cs)
  let rest ← literal? ":" (trimLeft ((quote? rest).getD rest))
  let value := trimLeft rest
  if value.isEmpty then none else some (name, value)

def Field.ofEntry? (cs : List Char) : Option Field :=
  (keyValue? (dropLeadingComments cs)).map fun (name, value) =>
    { Field.ofValue value with name := String.ofList name }

def parseFields (cs : List Char) : List Field :=
  (splitTopLevel cs).filterMap Field.ofEntry?

end SchemaDiagram
