import SchemaDiagram.Text.CaseTable

namespace SchemaDiagram.Text

def isCased (c : Char) : Bool :=
  inRanges casedRanges c.toNat

def isCaseIgnorable (c : Char) : Bool :=
  inRanges caseIgnorableRanges c.toNat

def lowerChar (c : Char) : List Char :=
  if c.toNat < 0x80 then [c.toLower]
  else if c = '\u0130' then ['i', '\u0307']
  else match CaseRun.apply? lowerRuns c.toNat with
    | some n => [Char.ofNat n]
    | none => [c]

def endsWord (before after : List Char) : Bool :=
  (before.dropWhile isCaseIgnorable).head?.any isCased &&
    !(after.dropWhile isCaseIgnorable).head?.any isCased

def lowerFrom (before : List Char) : List Char → List Char
  | [] => []
  | c :: cs =>
      (if c = '\u03a3' then [if endsWord before cs then '\u03c2' else '\u03c3'] else lowerChar c)
        ++ lowerFrom (c :: before) cs

def lower (cs : List Char) : List Char :=
  lowerFrom [] cs

def upperChar (c : Char) : List Char :=
  if c.toNat < 0x80 then [c.toUpper]
  else match upperExpansions.lookup c.toNat with
    | some ns => ns.map Char.ofNat
    | none =>
        match CaseRun.apply? upperRuns c.toNat with
        | some n => [Char.ofNat n]
        | none => [c]

def capitalize : List Char → List Char
  | [] => []
  | c :: cs => upperChar c ++ cs

end SchemaDiagram.Text
