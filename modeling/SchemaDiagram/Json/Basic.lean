import SchemaDiagram.Decimal.Binary64

namespace SchemaDiagram

inductive Json where
  | null
  | bool (b : Bool)
  | int (n : Int)
  | float (x : Binary64)
  | str (s : String)
  | arr (items : List Json)
  | obj (members : List (String × Json))
  deriving Repr, Inhabited

namespace Json

def put {α : Type} (name : String) (value : α) : List (String × α) → List (String × α)
  | [] => [(name, value)]
  | (k, v) :: rest => if k = name then (k, value) :: rest else (k, v) :: put name value rest

theorem lookup_put_self {α : Type} (name : String) (value : α) (table : List (String × α)) :
    (put name value table).lookup name = some value := by
  induction table with
  | nil => simp [put]
  | cons entry rest ih =>
      obtain ⟨k, v⟩ := entry
      by_cases h : k = name
      · simp [put, h]
      · have hne : (name == k) = false := by simpa using fun e : name = k => h e.symm
        simp [put, h, List.lookup_cons, hne, ih]

theorem lookup_put_of_ne {α : Type} {name other : String} (value : α) (table : List (String × α))
    (hne : other ≠ name) : (put name value table).lookup other = table.lookup other := by
  have hbeq : (other == name) = false := by simpa using hne
  induction table with
  | nil => simp [put, List.lookup_cons, hbeq]
  | cons entry rest ih =>
      obtain ⟨k, v⟩ := entry
      by_cases h : k = name
      · subst h
        simp [put, List.lookup_cons, hbeq]
      · simp [put, h, List.lookup_cons, ih]

def erase {α : Type} (name : String) (table : List (String × α)) : List (String × α) :=
  table.filter fun entry => entry.1 != name

theorem lookup_erase_self {α : Type} (name : String) (table : List (String × α)) :
    (erase name table).lookup name = none := by
  induction table with
  | nil => rfl
  | cons entry rest ih =>
      obtain ⟨k, v⟩ := entry
      by_cases h : k = name
      · simpa [erase, h] using ih
      · have hne : (name == k) = false := by simpa using fun e : name = k => h e.symm
        simpa [erase, h, List.lookup_cons, hne] using ih

theorem lookup_erase_of_ne {α : Type} {name other : String} (table : List (String × α))
    (hne : other ≠ name) : (erase name table).lookup other = table.lookup other := by
  have hbeq : (other == name) = false := by simpa using hne
  induction table with
  | nil => rfl
  | cons entry rest ih =>
      obtain ⟨k, v⟩ := entry
      by_cases h : k = name
      · simpa [erase, h, List.lookup_cons, hbeq] using ih
      · simp only [erase] at ih
        simp [erase, h, List.lookup_cons, ih]

def get? (name : String) : Json → Option Json
  | .obj members => members.lookup name
  | _ => none

def isTruthy : Json → Bool
  | .null => false
  | .bool b => b
  | .int n => n != 0
  | .float x => !x.isZero
  | .str s => !s.isEmpty
  | .arr items => !items.isEmpty
  | .obj members => !members.isEmpty

def str? : Json → Option String
  | .str s => some s
  | _ => none

end Json

end SchemaDiagram
