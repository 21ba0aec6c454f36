import SchemaDiagram.Decimal.Numeral
import SchemaDiagram.Text.Digit
import SchemaDiagram.Text.Lines
import SchemaDiagram.Text.Quoted
import SchemaDiagram.Text.Scan

namespace SchemaDiagram.CommandLine

open SchemaDiagram.Text

inductive ValueKind where
  | flag
  | help
  | text
  | number
  | integer
  deriving DecidableEq, Repr

def ValueKind.takesValue : ValueKind → Bool
  | .flag => false
  | .help => false
  | _ => true

def ValueKind.complaint? (k : ValueKind) (s : String) : Option String :=
  match k with
  | .number => if (Numeral.float? s.toList).isSome then none else some "float"
  | .integer => if (Numeral.int? s.toList).isSome then none else some "int"
  | _ => none

structure OptionSpec where
  names : List String
  kind : ValueKind
  deriving DecidableEq, Repr

def OptionSpec.key (o : OptionSpec) : String :=
  o.names.getLast?.getD ""

def OptionSpec.title (o : OptionSpec) : String :=
  "/".intercalate o.names

inductive Operand where
  | none
  | optional (name : String)
  | required (name : String)
  | command (name : String) (choices : List String)
  deriving DecidableEq, Repr

structure Grammar where
  program : String
  options : List OptionSpec
  operand : Operand
  deriving DecidableEq, Repr

inductive Fault where
  | ambiguous (word : String) (names : List String)
  | expectedArgument (title : String)
  | ignoredArgument (title text : String)
  | invalidValue (title type text : String)
  | invalidChoice (title text : String) (choices : List String)
  | missing (name : String)
  | unrecognized (words : List String)
  deriving DecidableEq, Repr

def quotedText (s : String) : String :=
  String.ofList (inQuotes s.toList)

def Fault.message : Fault → String
  | .ambiguous word names =>
      "ambiguous option: " ++ word ++ " could match " ++ ", ".intercalate names
  | .expectedArgument title => "argument " ++ title ++ ": expected one argument"
  | .ignoredArgument title text =>
      "argument " ++ title ++ ": ignored explicit argument " ++ quotedText text
  | .invalidValue title type text =>
      "argument " ++ title ++ ": invalid " ++ type ++ " value: " ++ quotedText text
  | .invalidChoice title text choices =>
      "argument " ++ title ++ ": invalid choice: " ++ quotedText text ++ " (choose from " ++
        ", ".intercalate (choices.map quotedText) ++ ")"
  | .missing name => "the following arguments are required: " ++ name
  | .unrecognized words => "unrecognized arguments: " ++ " ".intercalate words

inductive Stop where
  | fault (program : String) (f : Fault)
  | help
  deriving DecidableEq, Repr

structure Match where
  option : OptionSpec
  name : String
  given : Option (List Char)
  deriving DecidableEq, Repr

inductive Word where
  | operand (s : String)
  | separator
  | option (s : String) (found : Option Match)
  deriving DecidableEq, Repr

def Word.text : Word → String
  | .operand s => s
  | .separator => "--"
  | .option s _ => s

def Word.isOption : Word → Bool
  | .option _ _ => true
  | _ => false

namespace Grammar

def names (g : Grammar) : List (String × OptionSpec) :=
  g.options.flatMap fun o => o.names.map fun name => (name, o)

def option? (g : Grammar) (name : String) : Option OptionSpec :=
  g.names.lookup name

def atEquals (cs : List Char) : List Char × Option (List Char) :=
  match cs.dropWhile (· != '=') with
  | [] => (cs, none)
  | _ :: value => (cs.takeWhile (· != '='), some value)

def isLong (cs : List Char) : Bool :=
  ['-', '-'].isPrefixOf cs

def candidates (g : Grammar) (word : List Char) : List Match :=
  if isLong word then
    let (start, value) := atEquals word
    (g.names.filter fun (name, _) => start.isPrefixOf name.toList).map fun (name, o) =>
      ⟨o, name, value⟩
  else
    g.names.filterMap fun (name, o) =>
      if name.toList = word.take 2 then some ⟨o, name, some (word.drop 2)⟩
      else if word.isPrefixOf name.toList then some ⟨o, name, none⟩
      else none

def isDecimalDigit (c : Char) : Bool :=
  (digitValue? c).isSome

def isNegativeNumber (cs : List Char) : Bool :=
  match (if cs.getLast? = some '\n' then cs.dropLast else cs) with
  | '-' :: cs =>
      let rest := cs.dropWhile isDecimalDigit
      match rest with
      | [] => !cs.isEmpty
      | '.' :: fraction => !fraction.isEmpty && fraction.all isDecimalDigit
      | _ => false
  | _ => false

def classify (g : Grammar) (word : String) : Except Stop Word :=
  let cs := word.toList
  if cs.head? != some '-' then .ok (.operand word)
  else match g.option? word with
    | some o => .ok (.option word (some ⟨o, word, none⟩))
    | none =>
        if cs.length = 1 then .ok (.operand word)
        else
          let (start, value) := atEquals cs
          let name := String.ofList start
          match value, g.option? name with
          | some v, some o => .ok (.option word (some ⟨o, name, some v⟩))
          | _, _ =>
              match g.candidates cs with
              | [m] => .ok (.option word (some m))
              | [] =>
                  if isNegativeNumber cs || cs.contains ' ' then .ok (.operand word)
                  else .ok (.option word none)
              | ms => .error (.fault g.program (.ambiguous word (ms.map Match.name)))

def classifyAll (g : Grammar) : List String → Except Stop (List Word)
  | [] => .ok []
  | word :: words =>
      if word = "--" then .ok (.separator :: words.map .operand)
      else do
        let first ← g.classify word
        let rest ← g.classifyAll words
        return first :: rest

structure Reading where
  values : List (String × String) := []
  operands : Option (List String) := none
  extras : List String := []
  deriving DecidableEq, Repr

def fail {α : Type} (g : Grammar) (f : Fault) : Except Stop α :=
  .error (.fault g.program f)

def expand (g : Grammar) : Nat → Match → List Word →
    Except Stop (List (OptionSpec × Option String) × List Word)
  | 0, _, rest => .ok ([], rest)
  | fuel + 1, m, rest =>
      match m.given with
      | none =>
          if m.option.kind.takesValue then
            match rest with
            | .operand s :: rest => .ok ([(m.option, some s)], rest)
            | _ => g.fail (.expectedArgument m.option.title)
          else .ok ([(m.option, none)], rest)
      | some value =>
          let ignored := Fault.ignoredArgument m.option.title (String.ofList value)
          if m.option.kind.takesValue then .ok ([(m.option, some (String.ofList value))], rest)
          else if isLong m.name.toList then g.fail ignored
          else match value with
            | [] => g.fail ignored
            | c :: more =>
                let name := String.ofList ['-', c]
                match g.option? name with
                | none => g.fail ignored
                | some o =>
                    (g.expand fuel ⟨o, name, if more.isEmpty then none else some more⟩ rest).map
                      fun (taken, rest) => ((m.option, none) :: taken, rest)

def applyOption (g : Grammar) (r : Reading) (o : OptionSpec) (value : Option String) :
    Except Stop Reading :=
  match o.kind, value with
  | .help, _ => .error .help
  | _, none => .ok { r with values := r.values ++ [(o.key, "")] }
  | kind, some s =>
      match kind.complaint? s with
      | some type => g.fail (.invalidValue o.title type s)
      | none => .ok { r with values := r.values ++ [(o.key, s)] }

def applyOptions (g : Grammar) (r : Reading) :
    List (OptionSpec × Option String) → Except Stop Reading
  | [] => .ok r
  | (o, value) :: rest => do
      let r ← g.applyOption r o value
      g.applyOptions r rest

def readOption (g : Grammar) (r : Reading) (m : Match) (rest : List Word) :
    Except Stop (Reading × List Word) := do
  let (taken, rest) ← g.expand ((m.given.map List.length).getD 0 + 1) m rest
  return (← g.applyOptions r taken, rest)

def isSeparator (w : Word) : Bool :=
  w = .separator

def operandLength? (operand : Operand) (words : List Word) : Option Nat :=
  let before := (words.takeWhile isSeparator).length
  match operand, words.drop before with
  | .none, _ => .none
  | .command _ _, .operand _ :: rest => some (before + 1 + rest.length)
  | .command _ _, _ => none
  | _, .operand _ :: rest => some (before + 1 + (rest.takeWhile isSeparator).length)
  | .optional _, _ => some before
  | .required _, _ => none

def applyOperand (g : Grammar) (r : Reading) (words : List String) : Except Stop Reading :=
  match g.operand with
  | .command name choices =>
      let chosen := words.head?.getD ""
      if chosen ∈ choices then .ok { r with operands := some words }
      else g.fail (.invalidChoice name chosen choices)
  | _ => .ok { r with operands := some (words.erase "--") }

def readOperand (g : Grammar) (r : Reading) (words : List Word) :
    Except Stop (Reading × List Word) :=
  match r.operands with
  | some _ => .ok (r, words)
  | none =>
      match operandLength? g.operand words with
      | none => .ok (r, words)
      | some n => (g.applyOperand r ((words.take n).map Word.text)).map fun r => (r, words.drop n)

def readWords (g : Grammar) : Nat → Reading → List Word → Except Stop Reading
  | 0, r, _ => .ok r
  | fuel + 1, r, words =>
      match words with
      | .option s none :: rest => g.readWords fuel { r with extras := r.extras ++ [s] } rest
      | .option _ (some m) :: rest => do
          let (r, rest) ← g.readOption r m rest
          g.readWords fuel r rest
      | words => do
          let (r, rest) ← g.readOperand r words
          if rest.any Word.isOption then
            let skipped := if rest.length < words.length then [] else rest.takeWhile (!·.isOption)
            g.readWords fuel { r with extras := r.extras ++ skipped.map Word.text }
              (rest.drop skipped.length)
          else return { r with extras := r.extras ++ rest.map Word.text }

def missing? (g : Grammar) (r : Reading) : Option String :=
  match g.operand, r.operands with
  | .required name, none => some name
  | .command name _, none => some name
  | _, _ => none

def read (g : Grammar) (words : List String) : Except Stop Reading := do
  let words ← g.classifyAll words
  let r ← g.readWords (words.length + 1) {} words
  match g.missing? r with
  | some name => g.fail (.missing name)
  | none => return r

end Grammar

namespace Grammar.Reading

def value? (r : Reading) (key : String) : Option String :=
  r.values.reverse.lookup key

def has (r : Reading) (key : String) : Bool :=
  (r.value? key).isSome

end Grammar.Reading

end SchemaDiagram.CommandLine
