import SchemaDiagram.Text.Blank
import SchemaDiagram.Text.Lines

namespace SchemaDiagram

open SchemaDiagram.Text

/-- Each closing brace pairs with the latest opening one that has no partner yet; one without an
opening brace is passed over. `opened` holds the open places, the latest first. -/
def bracePairsFrom (at_ : Nat) (opened : List Nat) : List Char → List (Nat × Nat)
  | [] => []
  | c :: cs =>
      if c = '{' then bracePairsFrom (at_ + 1) (at_ :: opened) cs
      else if c = '}' then
        match opened with
        | [] => bracePairsFrom (at_ + 1) [] cs
        | o :: opened => (o, at_) :: bracePairsFrom (at_ + 1) opened cs
      else bracePairsFrom (at_ + 1) opened cs

def insertByOpening (pair : Nat × Nat) : List (Nat × Nat) → List (Nat × Nat)
  | [] => [pair]
  | p :: ps => if pair.1 ≤ p.1 then pair :: p :: ps else p :: insertByOpening pair ps

def bracePairs (cs : List Char) (start : Nat) : List (Nat × Nat) :=
  (bracePairsFrom start [] (cs.drop start)).foldr insertByOpening []

def closingBrace? (cs : List Char) (place : Nat) : Option Nat :=
  (bracePairsFrom place [] (cs.drop place)).lookup place

def isOpener (c : Char) : Bool :=
  c = '{' || c = '[' || c = '('

def isCloser (c : Char) : Bool :=
  c = '}' || c = ']' || c = ')'

def depthAfter (depth : Int) (c : Char) : Int :=
  if isOpener c then depth + 1 else if isCloser c then depth - 1 else depth

def consPiece (c : Char) : List (List Char) → List (List Char)
  | [] => [[c]]
  | piece :: pieces => (c :: piece) :: pieces

def piecesFrom (depth : Int) : List Char → List (List Char)
  | [] => [[]]
  | c :: cs =>
      if c = ',' && depth = 0 then [] :: piecesFrom depth cs
      else consPiece c (piecesFrom (depthAfter depth c) cs)

theorem consPiece_ne_nil (c : Char) (pieces : List (List Char)) : consPiece c pieces ≠ [] := by
  cases pieces <;> simp [consPiece]

theorem piecesFrom_ne_nil (depth : Int) (cs : List Char) : piecesFrom depth cs ≠ [] := by
  cases cs with
  | nil => simp [piecesFrom]
  | cons c cs =>
      simp only [piecesFrom]
      split
      · simp
      · exact consPiece_ne_nil _ _

theorem joinWith_consPiece (sep : List Char) (c : Char) {pieces : List (List Char)}
    (h : pieces ≠ []) : joinWith sep (consPiece c pieces) = c :: joinWith sep pieces := by
  cases pieces with
  | nil => exact absurd rfl h
  | cons piece rest => cases rest <;> simp [consPiece, joinWith]

theorem joinWith_piecesFrom (depth : Int) (cs : List Char) :
    joinWith [','] (piecesFrom depth cs) = cs := by
  induction cs generalizing depth with
  | nil => rfl
  | cons c cs ih =>
      simp only [piecesFrom]
      split
      · next h =>
          rw [joinWith_cons _ _ (piecesFrom_ne_nil depth cs), ih]
          simp_all
      · rw [joinWith_consPiece _ _ (piecesFrom_ne_nil _ cs), ih]

def dropEmptyLast : List (List Char) → List (List Char)
  | [] => []
  | [piece] => if piece.isEmpty then [] else [piece]
  | piece :: pieces => piece :: dropEmptyLast pieces

def splitTopLevel (cs : List Char) : List (List Char) :=
  dropEmptyLast ((piecesFrom 0 cs).map trim)

end SchemaDiagram
