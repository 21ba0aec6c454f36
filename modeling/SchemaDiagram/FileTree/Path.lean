import SchemaDiagram.FileTree.Basic
import SchemaDiagram.Text.Lines
import SchemaDiagram.Text.Scan

namespace SchemaDiagram

open SchemaDiagram.Text

/-- What stands in front of the names. Two slashes lead to the same root as one, but the two are kept
apart; three and more count as one. -/
inductive Anchor where
  | none
  | root
  | doubled
  deriving DecidableEq, Repr, Inhabited

namespace Anchor

def ofText : List Char → Anchor
  | '/' :: '/' :: '/' :: _ => .root
  | '/' :: '/' :: _ => .doubled
  | '/' :: _ => .root
  | _ => .none

def text : Anchor → String
  | .none => ""
  | .root => "/"
  | .doubled => "//"

end Anchor

structure Path where
  anchor : Anchor
  names : List String
  deriving DecidableEq, Repr, Inhabited

namespace Path

def ofText (s : String) : Path :=
  { anchor := .ofText s.toList
    names := ((splitAt '/' s.toList).map String.ofList).filter fun n => n != "" && n != "." }

def text (p : Path) : String :=
  if p.anchor = .none && p.names.isEmpty then "." else p.anchor.text ++ "/".intercalate p.names

def isAbsolute (p : Path) : Bool :=
  p.anchor != .none

def append (p q : Path) : Path :=
  if q.isAbsolute then q else { p with names := p.names ++ q.names }

def child (p : Path) (name : String) : Path :=
  { p with names := p.names ++ [name] }

def parent (p : Path) : Path :=
  { p with names := p.names.dropLast }

def name (p : Path) : String :=
  p.names.getLast?.getD ""

def ofPlace (p : Place) : Path :=
  { anchor := .root, names := p }

def isNameable (p : Path) : Bool :=
  p.names.all fun n => !n.toList.contains '\x00'

def start (standing : Place) (p : Path) : Place :=
  if p.isAbsolute then [] else standing

def place (standing : Place) (p : Path) : Place :=
  p.names.foldl Place.stepTo (p.start standing)

def straightened (standing : Place) (p : Path) : Path :=
  { anchor := if p.anchor = .none then .root else p.anchor, names := p.place standing }

def isWithin (root p : Path) : Bool :=
  p.anchor = root.anchor && root.names.isPrefixOf p.names

theorem isWithin_iff {root p : Path} :
    isWithin root p = true ↔ p.anchor = root.anchor ∧ root.names <+: p.names := by
  simp [isWithin]

def ofHome (home : String) : Option Path :=
  match dropRightWhile (· = '/') home.toList with
  | [] => some (ofPlace [])
  | '~' :: _ => none
  | cs => some (ofText (String.ofList cs))

def expandHome (home : Option String) (p : Path) : Option Path :=
  match p with
  | ⟨.none, "~" :: names⟩ => (home.bind ofHome).map fun h => h.append ⟨.none, names⟩
  | ⟨.none, name :: _⟩ => if name.toList.head? == some '~' then none else some p
  | _ => some p

theorem place_ofPlace {p : Place} (standing : Place) (h : ".." ∉ p) :
    (ofPlace p).place standing = p := by
  have step : ∀ (names before : List String), ".." ∉ names →
      names.foldl Place.stepTo before = before ++ names := by
    intro names
    induction names with
    | nil => simp
    | cons name names ih =>
        intro before hn
        have hne : name ≠ ".." := fun e => hn (e ▸ List.mem_cons_self)
        simp [Place.stepTo, hne, ih _ fun hm => hn (List.mem_cons_of_mem _ hm)]
  simpa [place, ofPlace, start, isAbsolute] using step p [] h

end Path

end SchemaDiagram
