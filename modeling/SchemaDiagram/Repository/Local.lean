import SchemaDiagram.Ignore.Rules
import SchemaDiagram.Repository.Basic

/-!
Repositories in a directory. The listing leaves out what the ignore rules of the directory say and
directories that never hold sources.
-/

namespace SchemaDiagram

open SchemaDiagram.Text

structure LocalRepository where
  tree : FileTree
  root : Path
  excludePaths : List String := []
  deriving Repr

namespace LocalRepository

def skippedNames : List String :=
  [".git", ".hg", ".svn", ".venv", ".next", "node_modules", "__pycache__", "bower_components"]

def ofPath (tree : FileTree) (standing : Place) (home : Option String) (path : String)
    (excludePaths : List String) : Except FileTree.ResolveFault LocalRepository :=
  (tree.resolveFromHome standing home (Path.ofText path)).map fun root =>
    { tree, root, excludePaths }

def identity (r : LocalRepository) : String :=
  r.root.text

def ignoreFileName : String := ".gitignore"

def ignoreLines (r : LocalRepository) : List (List Char) :=
  match r.tree.contentAt [] (r.root.append (Path.ofText ignoreFileName)) with
  | .ok content =>
      match Utf8.decode content with
      | .ok cs => lines cs
      | .error _ => []
  | .error _ => []

def ignoreRules (r : LocalRepository) : IgnoreRules :=
  .ofLines (r.ignoreLines ++ r.excludePaths.map String.toList)

def countsAsDirectory (tree : FileTree) (p : Path) : FileTree → Bool
  | .directory _ => true
  | .file _ => false
  | .link _ =>
      match tree.locate [] p with
      | .ok u => u.isDirectory
      | .error _ => false

structure Keeping where
  enters : Place → Bool
  isListedDirectory : Place → FileTree → Bool
  isListedFile : Place → FileTree → Bool

def relativeText (p : Place) : String :=
  "/".intercalate p

def entry (kind : EntryKind) (p : Place) : TreeEntry :=
  { path := relativeText p, kind }

def entriesBelow (k : Keeping) (p : Place) : FileTree → List TreeEntry
  | .directory entries =>
      ((entries.filter fun e => k.isListedDirectory (p ++ [e.1]) e.2).map fun e =>
        entry .directory (p ++ [e.1])) ++
      ((entries.filter fun e => k.isListedFile (p ++ [e.1]) e.2).map fun e =>
        entry .file (p ++ [e.1])) ++
      entriesInside p entries
  | _ => []
where
  entriesInside (p : Place) : List (String × FileTree) → List TreeEntry
    | [] => []
    | (name, t) :: rest =>
        (if k.enters (p ++ [name]) then entriesBelow k (p ++ [name]) t else []) ++
          entriesInside p rest

def goesBeyond (k : Keeping) (depth : Nat) (p : Place) : FileTree → Bool
  | .directory entries =>
      (depth ≤ p.length && entries.any fun e => k.isListedDirectory (p ++ [e.1]) e.2) ||
        goesInside p entries
  | _ => false
where
  goesInside (p : Place) : List (String × FileTree) → Bool
    | [] => false
    | (name, t) :: rest =>
        (k.enters (p ++ [name]) && goesBeyond k depth (p ++ [name]) t) || goesInside p rest

def keeping (r : LocalRepository) : Keeping :=
  let rules := r.ignoreRules
  let path (p : Place) : Path := r.root.append ⟨.none, p⟩
  let keeps (p : Place) : Bool :=
    !(skippedNames.contains (p.getLast?.getD "") || rules.ignores (relativeText p).toList true)
  let counts (p : Place) (t : FileTree) : Bool := countsAsDirectory r.tree (path p) t
  { enters := fun p => keeps p && !FileTree.isLongPath (path p)
    isListedDirectory := fun p t => counts p t && keeps p
    isListedFile := fun p t => !counts p t && !rules.ignores (relativeText p).toList false }

section

variable [Platform]

/-- What the root leads to; only a directory has a listing. Directories whose paths are too long count
as empty, and a walk that goes too deep has no end. -/
def listing (r : LocalRepository) : Except Repository.ListingFault (List TreeEntry) :=
  match r.tree.locate? [] r.root with
  | .error refusal => .error (.access (.refused refusal r.identity))
  | .ok none => .error (.unavailable ("Repository path not found: " ++ r.identity))
  | .ok (some t) =>
      if t.isDirectory then
        if goesBeyond r.keeping Platform.walkDepth [] t then
          .error (.tooDeep "maximum recursion depth exceeded")
        else .ok (entriesBelow r.keeping [] t)
      else .error (.unavailable ("Repository path is not a directory: " ++ r.identity))

end

def textOf : FileTree → String
  | .file content =>
      match Utf8.decode content with
      | .ok cs => String.ofList cs
      | .error _ => ""
  | _ => ""

def fetch (r : LocalRepository) (path : String) : Except FileTree.Fault String :=
  match r.tree.resolve [] (r.root.append (Path.ofText path)) with
  | .error f => .error (.resolve f)
  | .ok target =>
      if Path.isWithin r.root target then
        match r.tree.locate? [] target with
        | .error refusal => .error (.refused refusal target.text)
        | .ok found => .ok ((found.map textOf).getD "")
      else .ok ""

def deliver (r : LocalRepository) (path : String) : Repository.Delivery :=
  match r.fetch path with
  | .ok content => .text content
  | .error f => .failed f.message

def toRepository [Platform] (r : LocalRepository) : Repository :=
  { identity := r.identity, listing := r.listing, deliver := r.deliver }

end LocalRepository

end SchemaDiagram
