import SchemaDiagram.Encoding.Utf8

namespace SchemaDiagram

inductive FileTree where
  | file (content : Bytes)
  | directory (entries : List (String × FileTree))
  | link (target : String)
  deriving Repr, Inhabited

abbrev Place := List String

namespace Place

def text (p : Place) : String :=
  "/" ++ "/".intercalate p

def stepTo (p : Place) (name : String) : Place :=
  if name = ".." then p.dropLast else p ++ [name]

end Place

namespace FileTree

def empty : FileTree :=
  .directory []

def isDirectory : FileTree → Bool
  | .directory _ => true
  | _ => false

def child? (name : String) : FileTree → Option FileTree
  | .directory entries => entries.lookup name
  | _ => none

def find? : Place → FileTree → Option FileTree
  | [], t => some t
  | name :: names, t => (t.child? name).bind (find? names)

theorem find?_append (p q : Place) (t : FileTree) :
    find? (p ++ q) t = (find? p t).bind (find? q) := by
  induction p generalizing t with
  | nil => rfl
  | cons name names ih =>
      cases h : t.child? name with
      | none => simp [find?, h]
      | some u => simp [find?, h, ih]

def insertEntry (name : String) (t : FileTree) : List (String × FileTree) → List (String × FileTree)
  | [] => [(name, t)]
  | (k, u) :: rest =>
      if name = k then (name, t) :: rest
      else if name < k then (name, t) :: (k, u) :: rest
      else (k, u) :: insertEntry name t rest

theorem lookup_insertEntry (name : String) (t : FileTree) (entries : List (String × FileTree)) :
    (insertEntry name t entries).lookup name = some t := by
  induction entries with
  | nil => simp [insertEntry]
  | cons entry rest ih =>
      obtain ⟨k, u⟩ := entry
      by_cases h : name = k
      · simp [insertEntry, h]
      · by_cases hlt : name < k
        · simp [insertEntry, h, hlt]
        · have hbeq : (name == k) = false := by simpa using h
          simp [insertEntry, h, hlt, List.lookup_cons, hbeq, ih]

def insert (t : FileTree) : Place → FileTree → FileTree
  | [], _ => t
  | name :: names, .directory entries =>
      .directory
        (insertEntry name (t.insert names ((entries.lookup name).getD empty)) entries)
  | name :: names, _ => .directory [(name, t.insert names empty)]

theorem find?_insert (t : FileTree) (p : Place) (u : FileTree) :
    find? p (t.insert p u) = some t := by
  induction p generalizing u with
  | nil => simp [insert, find?]
  | cons name names ih =>
      cases u with
      | file _ => simp [insert, find?, child?, ih]
      | link _ => simp [insert, find?, child?, ih]
      | directory entries => simp [insert, find?, child?, lookup_insertEntry, ih]

end FileTree

end SchemaDiagram
