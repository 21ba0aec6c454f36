import SchemaDiagram.Text.Scan

/-!
Glob patterns over whole texts: `*` stands for any run of characters, `?` for any one, and brackets
for one of a class. No character is special to a text, a slash and a line feed included.
-/

namespace SchemaDiagram

namespace Glob

structure CharClass where
  negated : Bool
  ranges : List (Char × Char)
  deriving DecidableEq, Repr

def CharClass.accepts (k : CharClass) (c : Char) : Bool :=
  k.ranges.any (fun r => r.1 ≤ c && c ≤ r.2) != k.negated

inductive Piece where
  | run
  | one
  | literal (c : Char)
  | oneOf (k : CharClass)
  deriving DecidableEq, Repr

def chunk (skip : Nat) : List Char → List Char × Option (List Char)
  | [] => ([], none)
  | c :: cs =>
      if skip = 0 && c = '-' then ([], some cs)
      else
        let (before, after) := chunk (skip - 1) cs
        (c :: before, after)

def chunks : Nat → Nat → List Char → List (List Char)
  | 0, _, cs => [cs]
  | fuel + 1, skip, cs =>
      match chunk skip cs with
      | (before, none) => [before]
      | (before, some []) => [before ++ ['-']]
      | (before, some rest) => before :: chunks fuel 2 rest

def consChunk (before : List Char) : List (List Char) → List (List Char)
  | (c :: cs) :: rest =>
      match before.getLast? with
      | some d => if c < d then (before.dropLast ++ cs) :: rest else before :: (c :: cs) :: rest
      | none => before :: (c :: cs) :: rest
  | rest => before :: rest

def singles (cs : List Char) : List (Char × Char) :=
  cs.map fun c => (c, c)

def rangesFrom (before : List Char) : List (List Char) → List (Char × Char)
  | [] => singles before
  | cs :: rest =>
      match before.getLast?, cs with
      | some lo, hi :: cs => singles before.dropLast ++ (lo, hi) :: rangesFrom cs rest
      | _, _ => singles before ++ ('-', '-') :: rangesFrom cs rest

def CharClass.ofText (cs : List Char) : CharClass :=
  let pieces := chunks cs.length (if cs.head? = some '!' then 2 else 1) cs
  match pieces.foldr consChunk [] with
  | [] => { negated := false, ranges := [] }
  | ('!' :: cs) :: rest => { negated := true, ranges := rangesFrom cs rest }
  | cs :: rest => { negated := false, ranges := rangesFrom cs rest }

def bracketed? (cs : List Char) : Option (List Char × List Char) :=
  let (mark, cs) := match cs with
    | '!' :: cs => (['!'], cs)
    | cs => ([], cs)
  let (first, cs) := match cs with
    | ']' :: cs => ([']'], cs)
    | cs => ([], cs)
  match cs.dropWhile (· != ']') with
  | ']' :: rest => some (mark ++ first ++ cs.takeWhile (· != ']'), rest)
  | _ => none

def piecesFrom : Nat → List Char → List Piece
  | _, [] => []
  | 0, c :: cs => (c :: cs).map .literal
  | fuel + 1, c :: cs =>
      match c with
      | '*' => .run :: piecesFrom fuel cs
      | '?' => .one :: piecesFrom fuel cs
      | '[' =>
          match bracketed? cs with
          | some (inside, rest) => .oneOf (.ofText inside) :: piecesFrom fuel rest
          | none => .literal '[' :: piecesFrom fuel cs
      | c => .literal c :: piecesFrom fuel cs

def Piece.accepts : Piece → Char → Bool
  | .run, _ => true
  | .one, _ => true
  | .literal d, c => c == d
  | .oneOf k, c => k.accepts c

def suffixes : List Char → List (List Char)
  | [] => [[]]
  | c :: cs => (c :: cs) :: suffixes cs

/-- What a piece can leave of one of these texts, each a suffix of the one before. -/
def Piece.remainders (p : Piece) (rests : List (List Char)) : List (List Char) :=
  match p, rests with
  | .run, [] => []
  | .run, longest :: _ => suffixes longest
  | p, rests => rests.filterMap fun
      | [] => none
      | c :: cs => if p.accepts c then some cs else none

end Glob

structure Glob where
  pieces : List Glob.Piece
  deriving DecidableEq, Repr

namespace Glob

def ofText (cs : List Char) : Glob :=
  { pieces := piecesFrom cs.length cs }

def accepts (g : Glob) (cs : List Char) : Bool :=
  (g.pieces.foldl (fun rests p => p.remainders rests) [cs]).any List.isEmpty

theorem mem_suffixes {cs rest : List Char} : rest ∈ suffixes cs ↔ rest <:+ cs := by
  induction cs with
  | nil => simp [suffixes]
  | cons c cs ih => simp [suffixes, ih, List.suffix_cons_iff]

end Glob

end SchemaDiagram
