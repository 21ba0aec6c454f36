import SchemaDiagram.Json.Reader
import SchemaDiagram.Text.Quoted

namespace SchemaDiagram.Yaml

inductive Fault where
  | malformed
  | tooDeep
  | badInteger (base : Nat) (text : List Char)
  | badFloat (text : List Char)
  | tooManyDigits (count : Nat)
  | beyondFloat
  | emptyNumber
  | badDate (reason : String)
  | noDate
  | dateInMapping
  | unknownWord (text : List Char)
  | beyondCharacters
  | beyondEscapes
  deriving DecidableEq, Repr

namespace Fault

def quotedText (cs : List Char) : String :=
  String.ofList (Text.inQuotes cs)

def quoteLimit : Nat := 200

def message : Fault → String
  | .malformed => "<yaml>"
  | .tooDeep => "maximum recursion depth exceeded"
  | .badInteger base text =>
      "invalid literal for int() with base " ++ Nat.repr base ++ ": " ++
        String.ofList ((Text.inQuotes text).take quoteLimit)
  | .badFloat text => "could not convert string to float: " ++ quotedText text
  | .tooManyDigits count => (Json.Problem.tooManyDigits count).text
  | .beyondFloat => "int too large to convert to float"
  | .emptyNumber => "string index out of range"
  | .badDate reason => reason
  | .noDate => "'NoneType' object has no attribute 'groupdict'"
  | .dateInMapping => "expected string or bytes-like object, got 'list'"
  | .unknownWord text => quotedText text
  | .beyondCharacters => "chr() arg not in range(0x110000)"
  | .beyondEscapes => "Python int too large to convert to C int"

def isValueFault : Fault → Bool
  | .badInteger _ _ => true
  | .badFloat _ => true
  | .tooManyDigits _ => true
  | .badDate _ => true
  | .beyondCharacters => true
  | _ => false

end Fault

def orMalformed {α : Type} : Option α → Except Fault α
  | some x => .ok x
  | none => .error .malformed

end SchemaDiagram.Yaml
