import SchemaDiagram.Decimal.Text
import SchemaDiagram.Json.Basic
import SchemaDiagram.Text.Lines
import SchemaDiagram.Text.Quoted

/-!
JSON values written as texts: over several lines, two more blanks at each level of nesting, and in
ASCII alone.
-/

namespace SchemaDiagram.Json

open SchemaDiagram.Text

def unicodeEscape (n : Nat) : List Char :=
  '\\' :: 'u' :: hexText 4 n

def escapeChar (c : Char) : List Char :=
  if c = '"' then ['\\', '"']
  else if c = '\\' then ['\\', '\\']
  else if c = '\n' then ['\\', 'n']
  else if c = '\r' then ['\\', 'r']
  else if c = '\t' then ['\\', 't']
  else if c = '\x0c' then ['\\', 'f']
  else if c = '\x08' then ['\\', 'b']
  else if 0x20 ≤ c.toNat && c.toNat < 0x7F then [c]
  else if c.toNat < 0x10000 then unicodeEscape c.toNat
  else
    unicodeEscape (0xD800 + (c.toNat - 0x10000) / 0x400) ++
      unicodeEscape (0xDC00 + (c.toNat - 0x10000) % 0x400)

def stringText (s : String) : List Char :=
  '"' :: s.toList.flatMap escapeChar ++ ['"']

def floatText : Binary64 → List Char
  | .nan => ['N', 'a', 'N']
  | .infinite s => if s then "-Infinity".toList else "Infinity".toList
  | x => x.text

def lineBreak (depth : Nat) : List Char :=
  '\n' :: List.replicate (2 * depth) ' '

def render (depth : Nat) : Json → List Char
  | .null => "null".toList
  | .bool b => if b then "true".toList else "false".toList
  | .int n => intText n
  | .float x => floatText x
  | .str s => stringText s
  | .arr [] => ['[', ']']
  | .arr (v :: vs) =>
      '[' :: lineBreak (depth + 1) ++ render (depth + 1) v ++ renderItems (depth + 1) vs ++
        lineBreak depth ++ [']']
  | .obj [] => ['{', '}']
  | .obj ((k, v) :: ms) =>
      '{' :: lineBreak (depth + 1) ++ stringText k ++ [':', ' '] ++ render (depth + 1) v ++
        renderMembers (depth + 1) ms ++ lineBreak depth ++ ['}']
where
  renderItems (depth : Nat) : List Json → List Char
    | [] => []
    | v :: vs => ',' :: lineBreak depth ++ render depth v ++ renderItems depth vs
  renderMembers (depth : Nat) : List (String × Json) → List Char
    | [] => []
    | (k, v) :: ms =>
        ',' :: lineBreak depth ++ stringText k ++ [':', ' '] ++ render depth v ++
          renderMembers depth ms

def insertSorted {α : Type} (entry : String × α) : List (String × α) → List (String × α)
  | [] => [entry]
  | e :: es => if entry.1 ≤ e.1 then entry :: e :: es else e :: insertSorted entry es

def sortByName {α : Type} (table : List (String × α)) : List (String × α) :=
  table.foldr insertSorted []

def sorted : Json → Json
  | .arr items => .arr (sortedItems items)
  | .obj members => .obj (sortByName (sortedMembers members))
  | v => v
where
  sortedItems : List Json → List Json
    | [] => []
    | v :: vs => v.sorted :: sortedItems vs
  sortedMembers : List (String × Json) → List (String × Json)
    | [] => []
    | (k, v) :: ms => (k, v.sorted) :: sortedMembers ms

def pretty (v : Json) : List Char :=
  render 0 v

def onOneLine (quoted : String → List Char) : Json → List Char
  | .null => "null".toList
  | .bool b => if b then "true".toList else "false".toList
  | .int n => intText n
  | .float x => floatText x
  | .str s => quoted s
  | .arr items => '[' :: joinWith [','] (itemTexts items) ++ [']']
  | .obj members => '{' :: joinWith [','] (memberTexts members) ++ ['}']
where
  itemTexts : List Json → List (List Char)
    | [] => []
    | v :: vs => v.onOneLine quoted :: itemTexts vs
  memberTexts : List (String × Json) → List (List Char)
    | [] => []
    | (k, v) :: ms => (quoted k ++ ':' :: v.onOneLine quoted) :: memberTexts ms

def compact (v : Json) : List Char :=
  v.onOneLine stringText

def plainEscape (c : Char) : List Char :=
  if c.toNat < 0x20 || c = '"' || c = '\\' then escapeChar c else [c]

def plain (v : Json) : List Char :=
  v.onOneLine fun s => '"' :: s.toList.flatMap plainEscape ++ ['"']

end SchemaDiagram.Json
