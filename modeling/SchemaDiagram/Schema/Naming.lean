import SchemaDiagram.Schema.Binding
import SchemaDiagram.Schema.Declaration
import SchemaDiagram.Text.Case

/-!
Names of models: the one that the source registers, the one that the variable suggests, or the one
of the file.
-/

namespace SchemaDiagram.Naming

open SchemaDiagram.Text

def defaultLookback : Int := 200

def spells (word cs : List Char) : Bool :=
  cs.map (fun c => if c = '\u017f' then 's' else c.toLower) == word

def dropSuffix (isSuffix : List Char → Bool) (length : Nat) (cs : List Char) : List Char :=
  let ends (body tail : List Char) : Option (List Char) :=
    let kept := body.length - length
    if length ≤ body.length && isSuffix (body.drop kept) then some (body.take kept ++ tail)
    else none
  ((ends cs []).orElse fun _ =>
    if cs.getLast? = some '\n' then ends cs.dropLast ['\n'] else none).getD cs

def schemaWord : List Char := "schema".toList

def ofVariable? (cs : List Char) : Option (List Char) :=
  match dropSuffix (spells schemaWord) schemaWord.length cs with
  | [] => none
  | stem => some (capitalize stem)

def sourceExtensions : List String :=
  [".ts", ".js", ".tsx", ".jsx", ".mjs", ".cjs"]

def dropExtension (cs : List Char) : List Char :=
  let drop (extension : String) : Option (List Char) :=
    let shorter := dropSuffix (· == extension.toList) extension.length cs
    if shorter.length < cs.length then some shorter else none
  (sourceExtensions.findSome? drop).getD cs

def ofPath (path : List Char) : List Char :=
  capitalize (dropExtension (baseName path))

def resolve (cs : List Char) (start : Int) (index : Declaration.Index) (path : List Char)
    (lookback : Int) : List Char :=
  match Binding.find? cs start lookback with
  | none => ofPath path
  | some name =>
      match index.lookup (String.ofList name) with
      | some model => model.toList
      | none => (ofVariable? name).getD (ofPath path)

end SchemaDiagram.Naming
