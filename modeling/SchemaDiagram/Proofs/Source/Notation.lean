import SchemaDiagram.Schema.FieldValue
import SchemaDiagram.Schema.Naming

/-!
Source texts in their plainest form: schemas that are bound to variables, one a line, each perhaps
registered as a model on the next line; and the models that they stand for.
-/

namespace SchemaDiagram.Written

open SchemaDiagram.Text

structure Word where
  chars : List Char
  nonempty : chars ≠ []
  isWord : ∀ c ∈ chars, isWord c = true

structure Entry where
  label : String
  body : List Char

def Entry.text (a : Entry) : List Char :=
  a.label.toList ++ ':' :: ' ' :: a.body

def separator : List Char :=
  [',', ' ']

def objectText (pieces : List (List Char)) : List Char :=
  '{' :: ' ' :: joinWith separator pieces ++ [' ', '}']

def quotedText (w : Word) : List Char :=
  '\'' :: w.chars ++ ['\'']

inductive Trait where
  | required
  | ref (target : Word)
  | default (value : Word)
  | enum (first : Word) (others : List Word)

namespace Trait

def entry : Trait → Entry
  | .required => ⟨"required", ['t', 'r', 'u', 'e']⟩
  | .ref target => ⟨"ref", quotedText target⟩
  | .default value => ⟨"default", quotedText value⟩
  | .enum first others =>
      ⟨"enum", '[' :: joinWith separator ((first :: others).map quotedText) ++ [']']⟩

def isRequired : Trait → Bool
  | .required => true
  | _ => false

def ref? : Trait → Option (List Char)
  | .ref target => some target.chars
  | _ => none

def default? : Trait → Option (List Char)
  | .default value => some value.chars
  | _ => none

def enum? : Trait → Option (List (List Char))
  | .enum first others => some ((first :: others).map Word.chars)
  | _ => none

end Trait

inductive Value where
  | plain (type : FieldType)
  | array (type : FieldType)
  | object (type : FieldType) (traits : List Trait)

namespace Value

def typeEntry (type : FieldType) : Entry :=
  ⟨"type", type.name.toList⟩

def entries (type : FieldType) (traits : List Trait) : List Entry :=
  typeEntry type :: traits.map Trait.entry

def text : Value → List Char
  | .plain type => type.name.toList
  | .array type => '[' :: type.name.toList ++ [']']
  | .object type traits => objectText ((entries type traits).map Entry.text)

def field : Value → Field
  | .plain type => { name := "", type }
  | .array type => { name := "", type, isArray := true }
  | .object type traits =>
      { name := ""
        type
        required := traits.any Trait.isRequired
        ref := ((traits.findSome? Trait.ref?).map jsonText).getD .null
        defaultValue := ((traits.findSome? Trait.default?).map jsonText).getD .null
        enumValues := (traits.findSome? Trait.enum?).map fun values => values.map jsonText }

end Value

def newSchema : List Char :=
  ['n', 'e', 'w', ' ', 'S', 'c', 'h', 'e', 'm', 'a', '(']

def mongooseModel : List Char :=
  ['m', 'o', 'n', 'g', 'o', 'o', 's', 'e', '.', 'm', 'o', 'd', 'e', 'l', '(']

def closer : List Char :=
  [')', ';', '\n']

structure Member where
  name : Word
  value : Value

namespace Member

def text (m : Member) : List Char :=
  m.name.chars ++ ':' :: ' ' :: m.value.text

def field (m : Member) : Field :=
  { m.value.field with name := String.ofList m.name.chars }

end Member

structure Schema where
  var : Word
  registered : Option Word
  members : List Member
  nonempty : members ≠ []

namespace Schema

def literal (s : Schema) : List Char :=
  objectText (s.members.map Member.text)

def binding (s : Schema) : List Char :=
  ['c', 'o', 'n', 's', 't', ' '] ++ s.var.chars ++ [' ', '=', ' ']

def construction (s : Schema) : List Char :=
  newSchema ++ (s.literal ++ closer)

def registrationAs (s : Schema) (name : Word) : List Char :=
  mongooseModel ++ (quotedText name ++ separator ++ s.var.chars ++ closer)

def registration (s : Schema) : List Char :=
  match s.registered with
  | none => []
  | some name => s.registrationAs name

def text (s : Schema) : List Char :=
  s.binding ++ s.construction ++ s.registration

def modelName (path : List Char) (s : Schema) : List Char :=
  match s.registered with
  | some name => name.chars
  | none => (Naming.ofVariable? s.var.chars).getD (Naming.ofPath path)

def model (path : String) (s : Schema) : Model :=
  { name := String.ofList (s.modelName path.toList)
    filePath := path
    fields := s.members.map Member.field }

end Schema

def sourceText (schemas : List Schema) : List Char :=
  schemas.flatMap Schema.text

end SchemaDiagram.Written
