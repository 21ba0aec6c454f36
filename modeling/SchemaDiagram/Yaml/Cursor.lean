import SchemaDiagram.Text.Scan

namespace SchemaDiagram.Yaml

structure Cursor where
  rest : List Char
  index : Nat := 0
  line : Nat := 0
  column : Nat := 0
  deriving DecidableEq, Repr

def isBreak (c : Char) : Bool :=
  c = '\n' || c = '\r' || c = '\x85' || c = '\u2028' || c = '\u2029'

def isTabOrSpace (c : Char) : Bool :=
  c = ' ' || c = '\t'

def endsLine (c : Option Char) : Bool :=
  c.all isBreak

def endsField (c : Option Char) : Bool :=
  c.all fun c => isBreak c || c = ' '

def endsWord (c : Option Char) : Bool :=
  c.all fun c => isBreak c || isTabOrSpace c

def isAllowed (c : Char) : Bool :=
  let n := c.toNat
  n = 0x09 || n = 0x0A || n = 0x0D || (0x20 ≤ n && n ≤ 0x7E) || n = 0x85 ||
    (0xA0 ≤ n && n != 0xFFFE && n != 0xFFFF)

def isNameChar (c : Char) : Bool :=
  c.isAlphanum || c = '-' || c = '_'

namespace Cursor

def peek (c : Cursor) : Option Char :=
  c.rest.head?

def peekAt (c : Cursor) (k : Nat) : Option Char :=
  c.rest[k]?

def next (c : Cursor) : Cursor :=
  match c.rest with
  | [] => c
  | ch :: rest =>
      if isBreak ch && !(ch = '\r' && rest.head? = some '\n') then
        { rest, index := c.index + 1, line := c.line + 1, column := 0 }
      else
        { c with
          rest
          index := c.index + 1
          column := if ch = '\ufeff' then c.column else c.column + 1 }

def skip : Nat → Cursor → Cursor
  | 0, c => c
  | n + 1, c => skip n c.next

def span (p : Char → Bool) (c : Cursor) : List Char × Cursor :=
  let run := c.rest.takeWhile p
  (run, c.skip run.length)

def skipWhile (p : Char → Bool) (c : Cursor) : Cursor :=
  (c.span p).2

def skipSpaces (c : Cursor) : Cursor :=
  c.skipWhile (· = ' ')

def skipComment (c : Cursor) : Cursor :=
  if c.peek = some '#' then c.skipWhile (!isBreak ·) else c

def lineBreak? (c : Cursor) : Option (Char × Cursor) :=
  match c.rest with
  | '\r' :: '\n' :: _ => some ('\n', c.skip 2)
  | ch :: _ =>
      if ch = '\u2028' || ch = '\u2029' then some (ch, c.next)
      else if isBreak ch then some ('\n', c.next)
      else none
  | [] => none

def skipBreak (c : Cursor) : Cursor :=
  match c.lineBreak? with
  | some (_, c) => c
  | none => c

def skipRestOfLine? (c : Cursor) : Option Cursor :=
  let c := c.skipSpaces.skipComment
  if endsLine c.peek then some c.skipBreak else none

def startsWith (c : Cursor) (word : String) : Bool :=
  word.toList.isPrefixOf c.rest && endsWord (c.peekAt word.length)

def atSeparator (c : Cursor) : Bool :=
  c.startsWith "---" || c.startsWith "..."

end Cursor

end SchemaDiagram.Yaml
