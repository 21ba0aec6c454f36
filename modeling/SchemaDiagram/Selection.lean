import SchemaDiagram.Config.Basic
import SchemaDiagram.Schema.Extraction
import SchemaDiagram.Text.Case

/-!
The files of a repository that are worth reading: strong candidates, whose place or name suggests
models, and weak ones, which count only if they seem to construct a schema.
-/

namespace SchemaDiagram

open SchemaDiagram.Text

inductive EntryKind where
  | file
  | directory
  | other
  deriving DecidableEq, Repr

structure TreeEntry where
  path : String
  kind : EntryKind := .file
  deriving DecidableEq, Repr

structure Selection where
  strong : List String
  weak : List String
  deriving DecidableEq, Repr

namespace Config.Selector

def isEligible (s : Selector) (e : TreeEntry) : Bool :=
  e.kind == .file &&
    s.extensions.any fun x => (lower x.toList).isSuffixOf (lower e.path.toList)

def isExcluded (s : Selector) (path : String) : Bool :=
  s.excludePatterns.any fun p => occursIn p.toList (lower path.toList)

def anchored (path : String) : List Char :=
  match lower path.toList with
  | '/' :: cs => '/' :: cs
  | cs => '/' :: cs

def isModelFile (s : Selector) (path : String) : Bool :=
  !s.isExcluded path &&
    (s.modelDirs.any (fun d => occursIn d.toList (anchored path)) ||
      s.filenameHints.any fun h => occursIn h.toList (baseName (lower path.toList)))

def select (s : Selector) (entries : List TreeEntry) : Selection :=
  let paths := (entries.filter s.isEligible).map TreeEntry.path
  { strong := (paths.filter s.isModelFile).take s.strongLimit
    weak := (paths.filter (!s.isModelFile ·)).take s.weakLimit }

theorem length_strong_le (s : Selector) (entries : List TreeEntry) :
    (s.select entries).strong.length ≤ s.strongLimit := by
  simp only [select, List.length_take]
  omega

theorem length_weak_le (s : Selector) (entries : List TreeEntry) :
    (s.select entries).weak.length ≤ s.weakLimit := by
  simp only [select, List.length_take]
  omega

theorem isModelFile_of_mem_strong {s : Selector} {entries : List TreeEntry} {path : String}
    (h : path ∈ (s.select entries).strong) : s.isModelFile path = true :=
  (List.mem_filter.1 (List.mem_of_mem_take h)).2

theorem isExcluded_of_isModelFile {s : Selector} {path : String}
    (h : s.isModelFile path = true) : s.isExcluded path = false := by
  simp only [isModelFile, Bool.and_eq_true, Bool.not_eq_eq_eq_not, Bool.not_true] at h
  exact h.1

end Config.Selector

namespace Selection

def paths (s : Selection) : List String :=
  s.strong ++ s.weak

def materialise (s : Selection) (content : String → String) : List SourceFile :=
  let files (paths : List String) := paths.map fun p => SourceFile.mk p (content p)
  (files s.strong).filter (!·.content.isEmpty) ++
    (files s.weak).filter fun f => !f.content.isEmpty && hasSchema f.content.toList

end Selection

end SchemaDiagram
