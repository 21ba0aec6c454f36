import SchemaDiagram.Decimal.Text
import SchemaDiagram.Json.Basic
import SchemaDiagram.Text.Lines
import SchemaDiagram.Text.Quoted

namespace SchemaDiagram.Json

open SchemaDiagram.Text

def literalText : Json → List Char
  | .null => "None".toList
  | .bool b => if b then "True".toList else "False".toList
  | .int n => intText n
  | .float x => x.text
  | .str s => inQuotes s.toList
  | .arr items => '[' :: joinWith [',', ' '] (itemTexts items) ++ [']']
  | .obj members => '{' :: joinWith [',', ' '] (memberTexts members) ++ ['}']
where
  itemTexts : List Json → List (List Char)
    | [] => []
    | v :: vs => v.literalText :: itemTexts vs
  memberTexts : List (String × Json) → List (List Char)
    | [] => []
    | (k, v) :: ms => (inQuotes k.toList ++ ':' :: ' ' :: v.literalText) :: memberTexts ms

/-- Shown are only values that were read, and these are within the limits of texts. -/
def display : Json → String
  | .str s => s
  | v => String.ofList v.literalText

end SchemaDiagram.Json
