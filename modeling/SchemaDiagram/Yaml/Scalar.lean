import SchemaDiagram.Yaml.Cursor
import SchemaDiagram.Yaml.Fault

namespace SchemaDiagram.Yaml

variable [Platform]

namespace Plain

def isFlowIndicator (c : Char) : Bool :=
  c = ',' || c = '?' || c = '[' || c = ']' || c = '{' || c = '}'

def endsBefore (inFlow : Bool) : List Char → Bool
  | [] => true
  | c :: cs =>
      endsWord (some c) ||
        (c = ':' && (endsWord cs.head? ||
          (inFlow && cs.head?.any fun d => isFlowIndicator d && d != '?'))) ||
        (inFlow && isFlowIndicator c)

def wordLength (inFlow : Bool) : List Char → Nat
  | [] => 0
  | c :: cs => if endsBefore inFlow (c :: cs) then 0 else wordLength inFlow cs + 1

def breaks : Nat → Cursor → Option (List Char) × Cursor
  | 0, c => (some [], c)
  | fuel + 1, c =>
      match c.lineBreak? with
      | some (b, c) =>
          if c.atSeparator then (none, c)
          else
            let (more, c) := breaks fuel c
            (more.map (b :: ·), c)
      | none => if c.peek = some ' ' then breaks fuel c.next else (some [], c)

def gap (c : Cursor) : List Char × Cursor × Bool :=
  let (spaces, c) := c.span (· = ' ')
  match c.lineBreak? with
  | none => (spaces, c, false)
  | some (b, c) =>
      if c.atSeparator then ([], c, true)
      else
        match breaks c.rest.length c with
        | (none, c) => ([], c, true)
        | (some more, c) =>
            (if b != '\n' then b :: more else if more.isEmpty then [' '] else more, c, true)

def words (inFlow : Bool) (indent : Int) (before : List Char) :
    Nat → Cursor → List Char × Cursor × Bool
  | 0, c => ([], c, false)
  | fuel + 1, c =>
      if c.peek = some '#' then ([], c, false)
      else
        let length := wordLength inFlow c.rest
        if length = 0 then ([], c, false)
        else
          let word := before ++ c.rest.take length
          let (spaces, c, ended) := gap (c.skip length)
          if spaces.isEmpty || c.peek = some '#' || (!inFlow && (c.column : Int) < indent) then
            (word, c, ended)
          else
            let (more, c, ended') := words inFlow indent spaces fuel c
            (word ++ more, c, if more.isEmpty then ended else ended')

def read (inFlow : Bool) (indent : Int) (c : Cursor) : List Char × Cursor × Bool :=
  words inFlow (indent + 1) [] c.rest.length c

end Plain

namespace Quoted

def simpleEscape? : Char → Option Char
  | '0' => some '\x00'
  | 'a' => some '\x07'
  | 'b' => some '\x08'
  | 't' => some '\t'
  | '\t' => some '\t'
  | 'n' => some '\n'
  | 'v' => some '\x0b'
  | 'f' => some '\x0c'
  | 'r' => some '\r'
  | 'e' => some '\x1b'
  | ' ' => some ' '
  | '"' => some '"'
  | '\\' => some '\\'
  | '/' => some '/'
  | 'N' => some '\x85'
  | '_' => some '\xa0'
  | 'L' => some '\u2028'
  | 'P' => some '\u2029'
  | _ => none

def escapeLength? : Char → Option Nat
  | 'x' => some 2
  | 'u' => some 4
  | 'U' => some 8
  | _ => none

def hexValue? (cs : List Char) : Option Nat :=
  cs.foldlM (fun n c => (Json.hexValue? c).map (n * 16 + ·)) 0

def breaks : Nat → Cursor → Option (List Char × Cursor)
  | 0, c => some ([], c)
  | fuel + 1, c =>
      if c.atSeparator then none
      else
        let c := c.skipWhile isTabOrSpace
        match c.lineBreak? with
        | some (b, c) => (breaks fuel c).map fun (more, c) => (b :: more, c)
        | none => some ([], c)

def gap (c : Cursor) : Option (List Char × Cursor) :=
  let (blanks, c) := c.span isTabOrSpace
  match c.rest with
  | [] => none
  | _ =>
      match c.lineBreak? with
      | none => some (blanks, c)
      | some (b, c) =>
          (breaks (c.rest.length + 1) c).map fun (more, c) =>
            (if b != '\n' then b :: more else if more.isEmpty then [' '] else more, c)

def character (n : Nat) : Except Fault Char :=
  if n < 0x110000 then .ok (Json.codePoint n)
  else if n < 0x80000000 then .error .beyondCharacters
  else .error .beyondEscapes

def lowSurrogate? (c : Cursor) : Option (Nat × Cursor) :=
  match c.rest with
  | '\\' :: ch :: cs => do
      let length ← escapeLength? ch
      let digits := cs.take length
      let n ← if digits.length < length then none else hexValue? digits
      if Json.isLowSurrogate n then some (n, c.skip (length + 2)) else none
  | _ => none

def numbered (length : Nat) (c : Cursor) : Except Fault (List Char × Cursor) := do
  let digits := c.rest.take length
  let n ← orMalformed (if digits.length < length then none else hexValue? digits)
  let c := c.skip length
  match (if Json.isHighSurrogate n then lowSurrogate? c else none) with
  | some (low, c) =>
      return ([Json.codePoint (0x10000 + (n - 0xD800) * 0x400 + (low - 0xDC00))], c)
  | none => return ([← character n], c)

def escape (c : Cursor) : Except Fault (List Char × Cursor) :=
  match c.peek with
  | none => .error .malformed
  | some ch =>
      match simpleEscape? ch, escapeLength? ch with
      | some d, _ => .ok ([d], c.next)
      | none, some length => numbered length c.next
      | none, none =>
          if isBreak ch then
            let c := c.skipBreak
            orMalformed (breaks (c.rest.length + 1) c)
          else .error .malformed

def body (double : Bool) : Nat → Cursor → Except Fault (List Char × Cursor)
  | 0, _ => .error .malformed
  | fuel + 1, c =>
      let more (found : List Char × Cursor) : Except Fault (List Char × Cursor) :=
        (body double fuel found.2).map fun (rest, c) => (found.1 ++ rest, c)
      match c.rest with
      | [] => .error .malformed
      | ch :: rest =>
          if ch = '\'' && !double then
            if rest.head? = some '\'' then more (['\''], c.skip 2) else .ok ([], c.next)
          else if ch = '"' && double then .ok ([], c.next)
          else if ch = '\\' && double then (escape c.next).bind more
          else if isTabOrSpace ch || isBreak ch then (orMalformed (gap c)).bind more
          else more ([ch], c.next)

def read (double : Bool) (c : Cursor) : Except Fault (List Char × Cursor) :=
  body double (c.rest.length + 1) c.next

end Quoted

namespace Block

inductive Chomping where
  | strip
  | clip
  | keep
  deriving DecidableEq, Repr

def chomping? : Option Char → Option Chomping
  | some '+' => some .keep
  | some '-' => some .strip
  | _ => none

def increment? : Option Char → Option Nat
  | some c => if c.isDigit then some (c.toNat - 0x30) else none
  | none => none

def header? (c : Cursor) : Option (Chomping × Option Nat × Cursor) :=
  let (chomping, increment, c) :=
    match chomping? c.peek, increment? c.peek with
    | some k, _ =>
        match increment? c.next.peek with
        | some n => (k, some n, c.skip 2)
        | none => (k, none, c.next)
    | none, some n =>
        match chomping? c.next.peek with
        | some k => (k, some n, c.skip 2)
        | none => (.clip, some n, c.next)
    | none, none => (.clip, none, c)
  if increment = some 0 || !endsField c.peek then none
  else c.skipRestOfLine?.map fun c => (chomping, increment, c)

def leadingBreaks : Nat → Nat → Cursor → List Char × Nat × Cursor
  | 0, deepest, c => ([], deepest, c)
  | fuel + 1, deepest, c =>
      match c.lineBreak? with
      | some (b, c) =>
          let (more, deepest, c) := leadingBreaks fuel deepest c
          (b :: more, deepest, c)
      | none =>
          if c.peek = some ' ' then leadingBreaks fuel (max deepest c.next.column) c.next
          else ([], deepest, c)

def skipIndent (indent : Nat) (c : Cursor) : Cursor :=
  c.skip (min (indent - c.column) (c.rest.takeWhile (· = ' ')).length)

def breaks (indent : Nat) : Nat → Cursor → List Char × Cursor
  | 0, c => ([], skipIndent indent c)
  | fuel + 1, c =>
      let c := skipIndent indent c
      match c.lineBreak? with
      | some (b, c) =>
          let (more, c) := breaks indent fuel c
          (b :: more, c)
      | none => ([], c)

def lineEnd (c : Cursor) : List Char × Cursor :=
  match c.lineBreak? with
  | some (b, c) => ([b], c)
  | none => ([], c)

def lines (folded : Bool) (indent : Nat) :
    Nat → Cursor → List Char × List Char × List Char × Cursor
  | 0, c => ([], [], [], c)
  | fuel + 1, c =>
      let indented := c.peek.any isTabOrSpace
      let (line, c) := c.span (!isBreak ·)
      let (ending, c) := lineEnd c
      let (empty, c) := breaks indent c.rest.length c
      if c.column = indent && c.peek.isSome then
        let joint :=
          if folded && ending == ['\n'] && !indented && !c.peek.any isTabOrSpace then
            if empty.isEmpty then [' '] else []
          else ending
        let (more, ending, after, c) := lines folded indent fuel c
        (line ++ joint ++ empty ++ more, ending, after, c)
      else (line, ending, empty, c)

def read (folded : Bool) (indent : Int) (c : Cursor) : Option (List Char × Cursor) := do
  let (chomping, increment, c) ← header? c.next
  let least := (max (indent + 1) 1).toNat
  let (before, indent, c) := match increment with
    | some n =>
        let indent := least + n - 1
        let (before, c) := breaks indent c.rest.length c
        (before, indent, c)
    | none =>
        let (before, deepest, c) := leadingBreaks c.rest.length 0 c
        (before, max least deepest, c)
  let (content, ending, after, c) :=
    if c.column = indent && c.peek.isSome then
      let (content, ending, after, c) := lines folded indent c.rest.length c
      (before ++ content, ending, after, c)
    else ([], [], before, c)
  return match chomping with
    | .strip => (content, c)
    | .clip => (content ++ ending, c)
    | .keep => (content ++ ending ++ after, c)

end Block

end SchemaDiagram.Yaml
