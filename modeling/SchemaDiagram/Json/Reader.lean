import SchemaDiagram.Decimal.Numeral
import SchemaDiagram.Json.Basic
import SchemaDiagram.Platform

/-!
JSON texts read as values. The reader takes `NaN` and the infinities for numbers, keeps integers
exact, and of several members with one name keeps the last.
-/

namespace SchemaDiagram.Json

variable [Platform]

inductive Container where
  | array
  | object
  deriving DecidableEq, Repr

def Container.name : Container → String
  | .array => "array"
  | .object => "object"

inductive Problem where
  | expectedValue
  | expectedName
  | expectedColon
  | expectedComma
  | unterminatedString
  | controlCharacter
  | invalidEscape
  | invalidUnicodeEscape
  | extraData
  | byteOrderMark
  | tooManyDigits (count : Nat)
  | tooDeep (container : Container)
  deriving DecidableEq, Repr

def Problem.text : Problem → String
  | .expectedValue => "Expecting value"
  | .expectedName => "Expecting property name enclosed in double quotes"
  | .expectedColon => "Expecting ':' delimiter"
  | .expectedComma => "Expecting ',' delimiter"
  | .unterminatedString => "Unterminated string starting at"
  | .controlCharacter => "Invalid control character at"
  | .invalidEscape => "Invalid \\escape"
  | .invalidUnicodeEscape => "Invalid \\uXXXX escape"
  | .extraData => "Extra data"
  | .byteOrderMark => "Unexpected UTF-8 BOM (decode using utf-8-sig)"
  | .tooManyDigits count =>
      "Exceeds the limit (4300 digits) for integer string conversion: value has " ++
        Nat.repr count ++
        " digits; use sys.set_int_max_str_digits() to increase the limit"
  | .tooDeep container =>
      "maximum recursion depth exceeded while decoding a JSON " ++ container.name ++
        " from a unicode string"

structure Fault where
  problem : Problem
  left : Nat
  deriving DecidableEq, Repr

def Fault.isSyntax (f : Fault) : Bool :=
  match f.problem with
  | .tooManyDigits _ => false
  | .tooDeep _ => false
  | _ => true

def Fault.isTooDeep (f : Fault) : Bool :=
  match f.problem with
  | .tooDeep _ => true
  | _ => false

def lineAndColumn (cs : List Char) (position : Nat) : Nat × Nat :=
  (cs.take position).foldl
    (fun (line, column) c => if c = '\n' then (line + 1, 1) else (line, column + 1))
    (1, 1)

def Fault.message (f : Fault) (cs : List Char) : String :=
  if f.isSyntax then
    let position := cs.length - f.left
    let (line, column) := lineAndColumn cs position
    f.problem.text ++ ": line " ++ Nat.repr line ++ " column " ++ Nat.repr column ++
      " (char " ++ Nat.repr position ++ ")"
  else f.problem.text

def isSpace (c : Char) : Bool :=
  c = ' ' || c = '\t' || c = '\n' || c = '\r'

def skipSpace (cs : List Char) : List Char :=
  cs.dropWhile isSpace

def hexValue? (c : Char) : Option Nat :=
  let n := c.toNat
  if 0x30 ≤ n ∧ n ≤ 0x39 then some (n - 0x30)
  else if 0x41 ≤ n ∧ n ≤ 0x46 then some (n - 0x37)
  else if 0x61 ≤ n ∧ n ≤ 0x66 then some (n - 0x57)
  else none

def hexFour? : List Char → Option (Nat × List Char)
  | a :: b :: c :: d :: e :: cs => do
      let a ← hexValue? a
      let b ← hexValue? b
      let c ← hexValue? c
      let d ← hexValue? d
      return (((a * 16 + b) * 16 + c) * 16 + d, e :: cs)
  | _ => none

def isHighSurrogate (n : Nat) : Bool :=
  0xD800 ≤ n && n < 0xDC00

def isLowSurrogate (n : Nat) : Bool :=
  0xDC00 ≤ n && n < 0xE000

def joinSurrogates? (high : Nat) : List Char → Option (Nat × List Char)
  | '\\' :: 'u' :: cs => do
      let (low, rest) ← hexFour? cs
      if isHighSurrogate high && isLowSurrogate low then
        some (0x10000 + (high - 0xD800) * 0x400 + (low - 0xDC00), rest)
      else none
  | _ => none

def simpleEscape? : Char → Option Char
  | '"' => some '"'
  | '\\' => some '\\'
  | '/' => some '/'
  | 'b' => some '\x08'
  | 'f' => some '\x0c'
  | 'n' => some '\n'
  | 'r' => some '\r'
  | 't' => some '\t'
  | _ => none

def codePoint (n : Nat) : Char :=
  if 0xD800 ≤ n ∧ n < 0xE000 then Platform.standIn n else Char.ofNat n

def stringBody : Nat → List Char → Except Fault (Option (List Char × List Char))
  | 0, _ => .ok none
  | _ + 1, [] => .ok none
  | fuel + 1, c :: cs =>
      if c = '"' then .ok (some ([], cs))
      else if c = '\\' then
        match cs with
        | [] => .ok none
        | 'u' :: rest =>
            match hexFour? rest with
            | none => .error ⟨.invalidUnicodeEscape, cs.length⟩
            | some (n, rest') =>
                let (n, rest') := (joinSurrogates? n rest').getD (n, rest')
                (stringBody fuel rest').map (·.map fun (s, left) => (codePoint n :: s, left))
        | e :: rest =>
            match simpleEscape? e with
            | none => .error ⟨.invalidEscape, cs.length + 1⟩
            | some d => (stringBody fuel rest).map (·.map fun (s, left) => (d :: s, left))
      else if c.toNat < 0x20 then .error ⟨.controlCharacter, cs.length + 1⟩
      else (stringBody fuel cs).map (·.map fun (s, left) => (c :: s, left))

def string (cs : List Char) : Except Fault (String × List Char) := do
  match ← stringBody (cs.length + 1) cs with
  | none => .error ⟨.unterminatedString, cs.length + 1⟩
  | some (s, rest) => return (String.ofList s, rest)

def wholeDigits : List Char → List Char × List Char
  | '0' :: cs => (['0'], cs)
  | cs => (cs.takeWhile Char.isDigit, cs.dropWhile Char.isDigit)

def fractionDigits : List Char → List Char × List Char
  | '.' :: c :: cs =>
      if c.isDigit then ((c :: cs).takeWhile Char.isDigit, (c :: cs).dropWhile Char.isDigit)
      else ([], '.' :: c :: cs)
  | cs => ([], cs)

def exponentPart? : List Char → Option (Int × List Char)
  | [] => none
  | e :: cs =>
      if e = 'e' || e = 'E' then
        let (negative, body) := Numeral.signed cs
        let digits := body.takeWhile Char.isDigit
        if digits.isEmpty then none
        else
          let n := Numeral.digitsValue 10 digits
          some (if negative then -(n : Int) else n, body.dropWhile Char.isDigit)
      else none

def unsigned : List Char → Bool × List Char
  | '-' :: cs => (true, cs)
  | cs => (false, cs)

def number? (cs : List Char) : Option (Except Problem Json × List Char) :=
  let (negative, body) := unsigned cs
  let (whole, rest) := wholeDigits body
  if whole.isEmpty then none
  else
    let (fraction, rest) := fractionDigits rest
    match fraction, exponentPart? rest with
    | [], none =>
        if Numeral.digitLimit < whole.length then some (.error (.tooManyDigits whole.length), rest)
        else
          let n := Numeral.digitsValue 10 whole
          some (.ok (.int (if negative then -(n : Int) else n)), rest)
    | fraction, found =>
        let (e, rest) := found.getD (0, rest)
        let digits := Numeral.digitsValue 10 (whole ++ fraction)
        some (.ok (.float (.ofDecimal negative digits (e - fraction.length))), rest)

def constants : List (String × Json) :=
  [("null", .null), ("true", .bool true), ("false", .bool false), ("NaN", .float .nan),
   ("Infinity", .float (.infinite false)), ("-Infinity", .float (.infinite true))]

def constant? (cs : List Char) : Option (Json × List Char) :=
  constants.findSome? fun (word, v) => (word.toList.isPrefixOf? cs).map fun rest => (v, rest)

def scalar (cs : List Char) : Except Fault (Json × List Char) :=
  match constant? cs with
  | some found => .ok found
  | none =>
      match number? cs with
      | some (.ok v, rest) => .ok (v, rest)
      | some (.error p, _) => .error ⟨p, cs.length⟩
      | none => .error ⟨.expectedValue, cs.length⟩

def separator (close : Char) (cs : List Char) : Except Fault (Bool × List Char) :=
  match skipSpace cs with
  | ',' :: rest => .ok (true, skipSpace rest)
  | c :: rest => if c = close then .ok (false, rest) else .error ⟨.expectedComma, rest.length + 1⟩
  | [] => .error ⟨.expectedComma, 0⟩

def memberName : List Char → Except Fault (String × List Char)
  | '"' :: cs => do
      let (name, rest) ← string cs
      match skipSpace rest with
      | ':' :: rest => return (name, skipSpace rest)
      | rest => .error ⟨.expectedColon, rest.length⟩
  | cs => .error ⟨.expectedName, cs.length⟩

mutual

/-- A value at the front of the text. The fuel bounds the nesting and the number of elements, and
`depth` the containers that may yet open around a value. -/
def value : Nat → Nat → List Char → Except Fault (Json × List Char)
  | 0, _, cs => .error ⟨.expectedValue, cs.length⟩
  | fuel + 1, depth, cs =>
      match cs, depth with
      | '"' :: rest, _ => (string rest).map fun (s, rest) => (.str s, rest)
      | '[' :: _, 0 => .error ⟨.tooDeep .array, cs.length⟩
      | '{' :: _, 0 => .error ⟨.tooDeep .object, cs.length⟩
      | '[' :: rest, depth + 1 =>
          match skipSpace rest with
          | ']' :: rest => .ok (.arr [], rest)
          | rest => (elements fuel depth rest).map fun (items, rest) => (.arr items, rest)
      | '{' :: rest, depth + 1 =>
          match skipSpace rest with
          | '}' :: rest => .ok (.obj [], rest)
          | rest => (members fuel depth [] rest).map fun (table, rest) => (.obj table, rest)
      | cs, _ => scalar cs

def elements : Nat → Nat → List Char → Except Fault (List Json × List Char)
  | 0, _, cs => .error ⟨.expectedValue, cs.length⟩
  | fuel + 1, depth, cs => do
      let (v, rest) ← value fuel depth cs
      let (more, rest) ← separator ']' rest
      if more then
        let (vs, rest) ← elements fuel depth rest
        return (v :: vs, rest)
      else return ([v], rest)

def members : Nat → Nat → List (String × Json) → List Char →
    Except Fault (List (String × Json) × List Char)
  | 0, _, _, cs => .error ⟨.expectedName, cs.length⟩
  | fuel + 1, depth, table, cs => do
      let (name, rest) ← memberName cs
      let (v, rest) ← value fuel depth rest
      let (more, rest) ← separator '}' rest
      let table := put name v table
      if more then members fuel depth table rest else return (table, rest)

end

def parseWithin (depth : Nat) (cs : List Char) : Except Fault Json :=
  match cs with
  | '\ufeff' :: _ => .error ⟨.byteOrderMark, cs.length⟩
  | cs => do
      let (v, rest) ← value (cs.length + 1) depth (skipSpace cs)
      match skipSpace rest with
      | [] => return v
      | rest => .error ⟨.extraData, rest.length⟩

def parse (cs : List Char) : Except Fault Json :=
  parseWithin Platform.jsonDepth cs

end SchemaDiagram.Json
