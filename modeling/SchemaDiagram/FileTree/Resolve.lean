import SchemaDiagram.FileTree.Path

/-!
Paths to places. `follow` goes the way of the system, which counts the links on it. `resolve` follows
every link by its path, goes on by name where nothing is, and gives up on links that lead back to
themselves.
-/

namespace SchemaDiagram.FileTree

open SchemaDiagram.Text

def linkNames (target : String) : List String :=
  (splitAt '/' target.toList).map String.ofList

def isStay (name : String) : Bool :=
  name = "" || name = "."

def linkAnchor (target : String) : Anchor :=
  if (Anchor.ofText target.toList) = .none then .none else .root

inductive Refusal where
  | missing
  | exists
  | notDirectory
  | isDirectory
  | nameTooLong
  | linkLoop
  deriving DecidableEq, Repr

def Refusal.number : Refusal → Nat
  | .missing => 2
  | .exists => 17
  | .notDirectory => 20
  | .isDirectory => 21
  | .nameTooLong => 36
  | .linkLoop => 40

def Refusal.text : Refusal → String
  | .missing => "No such file or directory"
  | .exists => "File exists"
  | .notDirectory => "Not a directory"
  | .isDirectory => "Is a directory"
  | .nameTooLong => "File name too long"
  | .linkLoop => "Too many levels of symbolic links"

def isLongName (name : String) : Bool :=
  255 < name.utf8ByteSize

def isLongPath (p : Path) : Bool :=
  4096 ≤ p.text.utf8ByteSize

def linkLimit : Nat := 40

inductive Halt (α : Type) where
  | done (p : α)
  | link (base : α) (name target : String) (rest : List String)
  deriving Repr

inductive Purpose where
  | find
  | make
  deriving DecidableEq, Repr

def endsInSlash (names : List String) : Bool :=
  !names.isEmpty && names.all (· = "")

def toLink (t : FileTree) (purpose : Purpose) : Place → List String → Except Refusal (Halt Place)
  | p, [] => .ok (.done p)
  | p, name :: names =>
      match t.find? p with
      | none => .error .missing
      | some (.directory entries) =>
          if isStay name then t.toLink purpose p names
          else if name = ".." then t.toLink purpose p.dropLast names
          else if purpose = .make && endsInSlash names then .error .isDirectory
          else if isLongName name then .error .nameTooLong
          else match entries.lookup name with
            | some (.link target) => .ok (.link p name target names)
            | _ => t.toLink purpose (p ++ [name]) names
      | some _ => .error .notDirectory

def followNames (t : FileTree) (purpose : Purpose) :
    Nat → Place → List String → Except Refusal Place
  | links, p, names =>
      match t.toLink purpose p names with
      | .error r => .error r
      | .ok (.done q) => .ok q
      | .ok (.link base _ target rest) =>
          match links with
          | 0 => .error .linkLoop
          | links + 1 =>
              let start := if linkAnchor target = .none then base else []
              t.followNames purpose links start (linkNames target ++ rest)

def follow (t : FileTree) (purpose : Purpose) (standing : Place) (p : Path) :
    Except Refusal Place :=
  if isLongPath p then .error .nameTooLong
  else t.followNames purpose linkLimit (p.start standing) p.names

def locate (t : FileTree) (standing : Place) (p : Path) : Except Refusal FileTree := do
  match t.find? (← t.follow .find standing p) with
  | some u => return u
  | none => throw .missing

def Refusal.meansAbsent : Refusal → Bool
  | .missing => true
  | .notDirectory => true
  | .linkLoop => true
  | _ => false

def locate? (t : FileTree) (standing : Place) (p : Path) : Except Refusal (Option FileTree) :=
  match t.locate standing p with
  | .ok u => .ok (some u)
  | .error r => if r.meansAbsent then .ok none else .error r

def up (p : Path) : Path :=
  if p.names.getLast? = some ".." || (p.names.isEmpty && !p.isAbsolute) then p.child ".."
  else p.parent

def toLinkOfPath (t : FileTree) (standing : Place) : Path → List String → Halt Path
  | p, [] => .done p
  | p, name :: names =>
      if isStay name then t.toLinkOfPath standing p names
      else if name = ".." then t.toLinkOfPath standing (up p) names
      else match t.find? ((p.child name).place standing) with
        | some (.link target) => .link p name target names
        | _ => t.toLinkOfPath standing (p.child name) names

/-- Where a walk by path has come to. A walk that comes back to a link before it has followed it is
lost; the names behind the link still count. -/
inductive Trail where
  | reached (p : Path)
  | lost (p : Path)
  deriving DecidableEq, Repr

abbrev Seen := List (Path × Option Path)

def restPath (names : List String) : Path :=
  Path.ofText ("/".intercalate names)

def walk (t : FileTree) (standing : Place) : Nat → Seen → Path → List String → Seen × Trail
  | fuel, seen, p, names =>
      match t.toLinkOfPath standing p names with
      | .done q => (seen, .reached q)
      | .link base name target rest =>
          let here := base.child name
          match fuel, seen.lookup here with
          | 0, _ => (seen, .lost (here.append (restPath rest)))
          | _, some none => (seen, .lost (here.append (restPath rest)))
          | fuel + 1, some (some q) => t.walk standing fuel seen q rest
          | fuel + 1, none =>
              let start := if linkAnchor target = .none then base else Path.ofPlace []
              match t.walk standing fuel ((here, none) :: seen) start (linkNames target) with
              | (seen, .reached q) => t.walk standing fuel ((here, some q) :: seen) q rest
              | (seen, .lost q) => (seen, .lost (q.append (restPath rest)))

def linkSize : FileTree → Nat
  | .file _ => 0
  | .link target => (linkNames target).length + 1
  | .directory entries => sizeIn entries
where
  sizeIn : List (String × FileTree) → Nat
    | [] => 0
    | (_, t) :: rest => t.linkSize + sizeIn rest

inductive ResolveFault where
  | embeddedNull
  | linkLoop (p : Path)
  | unknownHome
  deriving DecidableEq, Repr

/-- Every link is followed at most twice, once by a path from the root and once by one from where one
stands, and is met again only where its name stands. -/
def walkBound (t : FileTree) (p : Path) : Nat :=
  p.names.length + 4 * t.linkSize + 4

def resolve (t : FileTree) (standing : Place) (p : Path) : Except ResolveFault Path :=
  if p.isNameable then
    let start : Path := if p.isAbsolute then Path.ofPlace [] else ⟨.none, []⟩
    let found := match (t.walk standing (t.walkBound p) [] start p.names).2 with
      | .reached q => q.straightened standing
      | .lost q => q.straightened standing
    match t.follow .find [] found with
    | .error .linkLoop => .error (.linkLoop found)
    | _ => .ok found
  else .error .embeddedNull

def resolveFromHome (t : FileTree) (standing : Place) (home : Option String) (p : Path) :
    Except ResolveFault Path :=
  match p.expandHome home with
  | some p => t.resolve standing p
  | none => .error .unknownHome

end SchemaDiagram.FileTree
