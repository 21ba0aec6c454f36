import SchemaDiagram.Decimal.Text
import SchemaDiagram.Text.Scan

namespace SchemaDiagram

open SchemaDiagram.Text

structure NameRegistry where
  taken : List String
  deriving DecidableEq, Repr

namespace NameRegistry

def empty : NameRegistry := ⟨[]⟩

def contains (r : NameRegistry) (name : String) : Bool :=
  r.taken.contains name

def size (r : NameRegistry) : Nat :=
  r.taken.length

def candidate (name base : String) : Nat → String
  | 0 => name
  | 1 => name ++ "_" ++ base
  | k => name ++ "_" ++ base ++ "_" ++ String.ofList (natText k)

def firstFree (r : NameRegistry) (name base : String) : Nat → Nat → String
  | 0, k => candidate name base k
  | fuel + 1, k =>
      if r.contains (candidate name base k) then r.firstFree name base fuel (k + 1)
      else candidate name base k

/-- Takes the first free candidate for a name. Among as many candidates as there are taken names
and one more, one is free. -/
def claim (r : NameRegistry) (name path : String) : String × NameRegistry :=
  let base := String.ofList (baseName path.toList)
  let chosen := r.firstFree name base (r.size + 1) 0
  (chosen, ⟨chosen :: r.taken⟩)

theorem taken_claim (r : NameRegistry) (name path : String) :
    (r.claim name path).2.taken = (r.claim name path).1 :: r.taken := rfl

theorem contains_claim (r : NameRegistry) (name path other : String) :
    (r.claim name path).2.contains other =
      (other == (r.claim name path).1 || r.contains other) := by
  simp only [contains, taken_claim, List.contains_cons]

theorem claim_of_free {r : NameRegistry} {name : String} (path : String)
    (h : r.contains name = false) : (r.claim name path).1 = name := by
  simp [claim, firstFree, candidate, h]

end NameRegistry

end SchemaDiagram
