import SchemaDiagram.Ignore.Glob
import SchemaDiagram.Text.Blank

/-!
Rules that leave files and directories out of a listing, one to a line. The last rule that applies
to a path decides.
-/

namespace SchemaDiagram

open SchemaDiagram.Text

namespace Ignore

structure Rule where
  glob : Glob
  negated : Bool
  directoriesOnly : Bool
  anchored : Bool
  deriving DecidableEq, Repr

namespace Rule

def isSlash (c : Char) : Bool :=
  c == '/'

def ofLine? (line : List Char) : Option Rule :=
  match trim line with
  | [] => none
  | '#' :: _ => none
  | '!' :: cs => ofText? true cs
  | cs => ofText? false cs
where
  ofText? (negated : Bool) (cs : List Char) : Option Rule :=
    let body := dropRightWhile isSlash cs
    match body.dropWhile isSlash with
    | [] => none
    | name =>
        some
          { glob := .ofText name
            negated
            directoriesOnly := cs.getLast? == some '/'
            anchored := body.any isSlash }

def applies (r : Rule) (path : List Char) (isDirectory : Bool) : Bool :=
  (isDirectory || !r.directoriesOnly) && r.glob.accepts (if r.anchored then path else baseName path)

end Rule

end Ignore

structure IgnoreRules where
  rules : List Ignore.Rule
  deriving DecidableEq, Repr

namespace IgnoreRules

def ofLines (lines : List (List Char)) : IgnoreRules :=
  { rules := lines.filterMap Ignore.Rule.ofLine? }

def ignores (rs : IgnoreRules) (path : List Char) (isDirectory : Bool) : Bool :=
  rs.rules.foldl (fun ignored r => if r.applies path isDirectory then !r.negated else ignored) false

theorem ignores_nil (path : List Char) (isDirectory : Bool) :
    (IgnoreRules.mk []).ignores path isDirectory = false := rfl

theorem ignores_append_single (rs : List Ignore.Rule) (r : Ignore.Rule) (path : List Char)
    (isDirectory : Bool) :
    (IgnoreRules.mk (rs ++ [r])).ignores path isDirectory =
      if r.applies path isDirectory then !r.negated
      else (IgnoreRules.mk rs).ignores path isDirectory := by
  simp [ignores, List.foldl_append]

end IgnoreRules

end SchemaDiagram
