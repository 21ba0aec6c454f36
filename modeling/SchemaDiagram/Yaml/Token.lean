import SchemaDiagram.Encoding.Percent
import SchemaDiagram.Yaml.Scalar

/-!
The tokens of a YAML text. Indentation becomes tokens that open and close blocks. Where a text breaks
the rules its tokens end with `broken`, which counts only for those who come to it.
-/

namespace SchemaDiagram.Yaml

variable [Platform]

structure WrittenTag where
  handle : Option String
  suffix : String
  deriving DecidableEq, Repr

inductive Token where
  | versionDirective (major : Nat)
  | tagDirective (handle start : String)
  | otherDirective
  | documentStart
  | documentEnd
  | blockSequenceStart
  | blockMappingStart
  | blockEnd
  | flowSequenceStart
  | flowSequenceEnd
  | flowMappingStart
  | flowMappingEnd
  | flowSeparator
  | item
  | key
  | value
  | reference (name : String)
  | anchor (name : String)
  | tag (tag : WrittenTag)
  | scalar (text : List Char) (isPlain : Bool)
  | streamEnd
  | broken (f : Fault)
  deriving DecidableEq, Repr

namespace Token

def name? (c : Cursor) : Option (String × Cursor) :=
  let (name, c) := c.next.span isNameChar
  let ends := c.peek.all fun d => endsWord (some d) || "?:,]\x7d%@\x60".toList.contains d
  if name.isEmpty || !ends then none else some (String.ofList name, c)

def isUriChar (c : Char) : Bool :=
  c.isAlphanum || "-;/?:@&=+$,_.!~*'()[]".toList.contains c

def uriChars : Nat → Cursor → Option (List Char × Cursor)
  | 0, c => some ([], c)
  | fuel + 1, c =>
      match c.rest with
      | [] => some ([], c)
      | ch :: _ =>
          if ch = '%' then do
            let length ← escapes c.rest
            let text ← (Utf8.decode (Percent.unquoteBytes (c.rest.take length))).toOption
            let (more, c) ← uriChars fuel (c.skip length)
            return (text ++ more, c)
          else if isUriChar ch then
            (uriChars fuel c.next).map fun (more, c) => (ch :: more, c)
          else some ([], c)
where
  escapes : List Char → Option Nat
    | '%' :: a :: b :: cs =>
        if (Json.hexValue? a).isSome && (Json.hexValue? b).isSome then (escapes cs).map (· + 3)
        else none
    | '%' :: _ => none
    | _ => some 0

def uri? (c : Cursor) : Option (String × Cursor) := do
  let (cs, rest) ← uriChars (c.rest.length + 1) c
  if rest.index = c.index then none else some (String.ofList cs, rest)

def handle? (c : Cursor) : Option (String × Cursor) :=
  if c.peek != some '!' then none
  else if c.peekAt 1 = some ' ' then some ("!", c.next)
  else
    let (name, rest) := c.next.span isNameChar
    if rest.peek = some '!' then some (String.ofList ('!' :: name ++ ['!']), rest.next) else none

def hasSecondMark : List Char → Bool
  | [] => false
  | c :: cs => !endsField (some c) && (c = '!' || hasSecondMark cs)

def writtenTag? (c : Cursor) : Option (WrittenTag × Cursor) :=
  if c.peekAt 1 = some '<' then do
    let (suffix, c) ← uri? (c.skip 2)
    if c.peek = some '>' then some (⟨none, suffix⟩, c.next) else none
  else if endsWord (c.peekAt 1) then some (⟨none, "!"⟩, c.next)
  else do
    let (handle, c) ← if hasSecondMark (c.rest.drop 1) then handle? c else some ("!", c.next)
    let (suffix, c) ← uri? c
    return (⟨some handle, suffix⟩, c)

def tag? (c : Cursor) : Option (Token × Cursor) := do
  let (written, c) ← writtenTag? c
  if endsField c.peek then some (.tag written, c) else none

def tagDirective? (c : Cursor) : Option (Token × Cursor) := do
  let (handle, c) ← handle? c.skipSpaces
  if c.peek != some ' ' then none
  let (start, c) ← uri? c.skipSpaces
  if endsField c.peek then some (.tagDirective handle start, c) else none

def number (c : Cursor) : Except Fault (Nat × Cursor) :=
  let (digits, rest) := c.span Char.isDigit
  if digits.isEmpty then .error .malformed
  else if Numeral.digitLimit < digits.length then .error (.tooManyDigits digits.length)
  else .ok (Numeral.digitsValue 10 digits, rest)

def version (c : Cursor) : Except Fault (Token × Cursor) := do
  let (major, c) ← number c.skipSpaces
  if c.peek != some '.' then throw .malformed
  let (_, c) ← number c.next
  if endsField c.peek then return (.versionDirective major, c) else throw .malformed

def directive (c : Cursor) : Except Fault (Token × Cursor) := do
  let (name, c) := c.next.span isNameChar
  if name.isEmpty || !endsField c.peek then throw .malformed
  let (token, c) ← match String.ofList name with
    | "YAML" => version c
    | "TAG" => orMalformed (tagDirective? c)
    | _ => .ok (.otherDirective, c.skipWhile (!isBreak ·))
  return (token, ← orMalformed c.skipRestOfLine?)

end Token

structure PossibleKey where
  token : Nat
  required : Bool
  index : Nat
  line : Nat
  column : Nat
  deriving DecidableEq, Repr

/-- The work of reading tokens. The possible keys belong to the brackets that are open, the
innermost first. -/
structure Reading where
  cursor : Cursor
  indent : Int := -1
  indents : List Int := []
  keyAllowed : Bool := true
  possibleKeys : List (Option PossibleKey) := [none]
  tokens : Array Token := #[]
  deriving DecidableEq, Repr

namespace Reading

def inFlow (r : Reading) : Bool :=
  1 < r.possibleKeys.length

def push (token : Token) (r : Reading) : Reading :=
  { r with tokens := r.tokens.push token }

def insert (number : Nat) (token : Token) (r : Reading) : Reading :=
  { r with tokens := r.tokens.insertIdxIfInBounds number token }

def moveTo (c : Cursor) (r : Reading) : Reading :=
  { r with cursor := c }

def unwindTo (column : Int) (r : Reading) : Reading :=
  if r.inFlow then r else go r.indents r
where
  go : List Int → Reading → Reading
    | [], r => r
    | outer :: indents, r =>
        if column < r.indent then
          go indents { r with indent := outer, indents, tokens := r.tokens.push .blockEnd }
        else r

def dropStaleKeys (r : Reading) : Option Reading := do
  let keys ← r.possibleKeys.mapM fun
    | none => some none
    | some k =>
        if k.line != r.cursor.line || 1024 < r.cursor.index - k.index then
          if k.required then none else some none
        else some (some k)
  return { r with possibleKeys := keys }

def removeKey (r : Reading) : Option Reading :=
  match r.possibleKeys with
  | some k :: keys => if k.required then none else some { r with possibleKeys := none :: keys }
  | _ => some r

def saveKey (r : Reading) : Option Reading :=
  if r.keyAllowed then do
    let r ← r.removeKey
    let c := r.cursor
    let key : PossibleKey :=
      { token := r.tokens.size
        required := !r.inFlow && r.indent = c.column
        index := c.index
        line := c.line
        column := c.column }
    return { r with possibleKeys := some key :: r.possibleKeys.drop 1 }
  else some r

def openBlock (column : Nat) (token : Token) (number : Nat) (r : Reading) : Reading :=
  if r.indent < column then
    insert number token { r with indents := r.indent :: r.indents, indent := column }
  else r

def skipToToken : Nat → Reading → Reading
  | 0, r => r
  | fuel + 1, r =>
      let c := r.cursor.skipSpaces.skipComment
      match c.lineBreak? with
      | none => { r with cursor := c }
      | some (_, c) =>
          skipToToken fuel { r with cursor := c, keyAllowed := r.keyAllowed || !r.inFlow }

def disallowKey (r : Reading) : Reading :=
  { r with keyAllowed := false }

def readMarker (token : Token) (r : Reading) : Option Reading := do
  let r ← (r.unwindTo (-1)).removeKey
  return (r.disallowKey.push token).moveTo (r.cursor.skip 3)

def readDirective (r : Reading) : Except Fault Reading := do
  let r ← orMalformed (r.unwindTo (-1)).removeKey
  let (token, c) ← Token.directive r.cursor
  return (r.disallowKey.push token).moveTo c

def readOpening (token : Token) (r : Reading) : Option Reading := do
  let r ← r.saveKey
  return ({ r with possibleKeys := none :: r.possibleKeys, keyAllowed := true }.push token).moveTo
    r.cursor.next

def readClosing (token : Token) (r : Reading) : Option Reading := do
  let r ← r.removeKey
  if !r.inFlow then none
  return ({ r with possibleKeys := r.possibleKeys.drop 1, keyAllowed := false }.push token).moveTo
    r.cursor.next

def readSeparator (r : Reading) : Option Reading := do
  let r ← r.removeKey
  return ({ r with keyAllowed := true }.push .flowSeparator).moveTo r.cursor.next

def openOutsideFlow (token : Token) (r : Reading) : Option Reading :=
  if r.inFlow then some r
  else if r.keyAllowed then some (r.openBlock r.cursor.column token r.tokens.size)
  else none

def readItem (r : Reading) : Option Reading := do
  let r ← r.openOutsideFlow .blockSequenceStart
  let r ← { r with keyAllowed := true }.removeKey
  return (r.push .item).moveTo r.cursor.next

def readKey (r : Reading) : Option Reading := do
  let r ← r.openOutsideFlow .blockMappingStart
  let r ← { r with keyAllowed := !r.inFlow }.removeKey
  return (r.push .key).moveTo r.cursor.next

def readValue (r : Reading) : Option Reading := do
  match r.possibleKeys with
  | some k :: keys =>
      let r := { r with possibleKeys := none :: keys }.insert k.token .key
      let r := if r.inFlow then r else r.openBlock k.column .blockMappingStart k.token
      return (r.disallowKey.push .value).moveTo r.cursor.next
  | _ =>
      let r ← r.openOutsideFlow .blockMappingStart
      return ({ r with keyAllowed := !r.inFlow }.push .value).moveTo r.cursor.next

def readKeyStart (read : Cursor → Except Fault (Token × Cursor)) (r : Reading) :
    Except Fault Reading := do
  let r ← orMalformed r.saveKey
  let (token, c) ← read r.cursor
  return (r.disallowKey.push token).moveTo c

def readName (token : String → Token) (r : Reading) : Except Fault Reading :=
  r.readKeyStart fun c => orMalformed ((Token.name? c).map fun (name, c) => (token name, c))

def readTag (r : Reading) : Except Fault Reading :=
  r.readKeyStart fun c => orMalformed (Token.tag? c)

def readQuoted (double : Bool) (r : Reading) : Except Fault Reading :=
  r.readKeyStart fun c => (Quoted.read double c).map fun (text, c) => (.scalar text false, c)

def readPlain (r : Reading) : Option Reading := do
  let r ← r.saveKey
  let (text, c, ended) := Plain.read r.inFlow r.indent r.cursor
  return ({ r with keyAllowed := ended }.push (.scalar text true)).moveTo c

def readBlock (folded : Bool) (r : Reading) : Option Reading := do
  let r ← { r with keyAllowed := true }.removeKey
  let (text, c) ← Block.read folded r.indent r.cursor
  return (r.push (.scalar text false)).moveTo c

def readEnd (r : Reading) : Option Reading := do
  let r ← (r.unwindTo (-1)).removeKey
  return r.push .streamEnd

def startsPlain (r : Reading) : Bool :=
  match r.cursor.peek with
  | none => false
  | some c =>
      !(endsWord (some c) || "-?:,[]\x7b\x7d#&*!|>'\"%@\x60".toList.contains c) ||
        (!endsWord (r.cursor.peekAt 1) && (c = '-' || (!r.inFlow && (c = '?' || c = ':'))))

def readAt (first : Char) (r : Reading) : Except Fault Reading :=
  let c := r.cursor
  let alone := r.inFlow || endsWord (c.peekAt 1)
  if c.column = 0 && first = '%' then r.readDirective
  else if c.column = 0 && c.startsWith "---" then orMalformed (r.readMarker .documentStart)
  else if c.column = 0 && c.startsWith "..." then orMalformed (r.readMarker .documentEnd)
  else if first = '[' then orMalformed (r.readOpening .flowSequenceStart)
  else if first = '{' then orMalformed (r.readOpening .flowMappingStart)
  else if first = ']' then orMalformed (r.readClosing .flowSequenceEnd)
  else if first = '}' then orMalformed (r.readClosing .flowMappingEnd)
  else if first = ',' then orMalformed r.readSeparator
  else if first = '-' && endsWord (c.peekAt 1) then orMalformed r.readItem
  else if first = '?' && alone then orMalformed r.readKey
  else if first = ':' && alone then orMalformed r.readValue
  else if first = '*' then r.readName .reference
  else if first = '&' then r.readName .anchor
  else if first = '!' then r.readTag
  else if first = '|' && !r.inFlow then orMalformed (r.readBlock false)
  else if first = '>' && !r.inFlow then orMalformed (r.readBlock true)
  else if first = '\'' then r.readQuoted false
  else if first = '"' then r.readQuoted true
  else if r.startsPlain then orMalformed r.readPlain
  else .error .malformed

def step (r : Reading) : Except Fault (Reading × Bool) := do
  let r ← orMalformed (skipToToken (r.cursor.rest.length + 1) r).dropStaleKeys
  let r := r.unwindTo r.cursor.column
  match r.cursor.peek with
  | none => return (← orMalformed r.readEnd, false)
  | some first => return (← r.readAt first, true)

/-- How many tokens are settled. A token that may yet be found to be a key is not. -/
def settled (r : Reading) : Nat :=
  r.possibleKeys.foldl (fun n key => key.elim n fun k => min n k.token) r.tokens.size

def breakOff (f : Fault) (r : Reading) : List Token :=
  r.tokens.toList.take r.settled ++ [.broken f]

def run : Nat → Reading → List Token
  | 0, r => r.breakOff .malformed
  | fuel + 1, r =>
      match r.dropStaleKeys with
      | none => r.breakOff .malformed
      | some r =>
          match r.step with
          | .error f => r.breakOff f
          | .ok (r, true) => run fuel r
          | .ok (r, false) => r.tokens.toList

end Reading

def Token.ofText (cs : List Char) : List Token :=
  if cs.all isAllowed then
    let start : Cursor := { rest := cs }
    let start := if start.peek = some '\ufeff' then start.next else start
    Reading.run (cs.length + 2) { cursor := start }
  else [.broken .malformed]

end SchemaDiagram.Yaml
