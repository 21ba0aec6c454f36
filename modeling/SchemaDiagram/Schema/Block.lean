import SchemaDiagram.Schema.Bracket
import SchemaDiagram.Schema.Constructor

namespace SchemaDiagram

open SchemaDiagram.Text

structure SchemaBlock where
  start : Nat
  text : List Char
  deriving DecidableEq, Repr

namespace SchemaBlock

def body (b : SchemaBlock) : List Char :=
  (b.text.drop 1).dropLast

def opening? (length : Nat) : Recogniser Nat := fun before cs =>
  (constructorOfLiteral? before cs).map fun (_, rest) => (length - rest.length, rest)

def constructors (cs : List Char) : List (Nat × Nat) :=
  findAll (opening? cs.length) cs

def balanced? (pairs : List (Nat × Nat)) (cs : List Char) : Nat × Nat → Option SchemaBlock
  | (start, opening) =>
      (pairs.lookup opening).map fun closing =>
        ⟨start, (cs.drop opening).take (closing + 1 - opening)⟩

def allIn (cs : List Char) : List SchemaBlock :=
  (constructors cs).filterMap (balanced? (bracePairsFrom 0 [] cs) cs)

end SchemaBlock

end SchemaDiagram
