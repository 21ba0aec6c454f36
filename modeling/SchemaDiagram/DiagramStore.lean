import SchemaDiagram.FileTree.Access
import SchemaDiagram.Json.Limit
import SchemaDiagram.Schema.Model
import SchemaDiagram.Timestamp

/-!
Diagrams kept for users, the latest one of each repository, and the file that they are kept in.
-/

namespace SchemaDiagram

open SchemaDiagram.Text

structure DiagramRecord where
  repository : String
  user : String
  models : List Model
  createdAt : String
  updatedAt : String
  deriving Repr

namespace DiagramRecord

def toJson (r : DiagramRecord) : Json :=
  .obj [("repository", .str r.repository), ("user", .str r.user),
    ("models", .arr (r.models.map Model.toJson)), ("created_at", .str r.createdAt),
    ("updated_at", .str r.updatedAt)]

end DiagramRecord

abbrev DiagramEntry := List (String × Json)

namespace DiagramEntry

def member (name : String) (e : DiagramEntry) : Json :=
  (e.lookup name).getD .null

def text (name fallback : String) (e : DiagramEntry) : String :=
  ((e.lookup name).map Json.display).getD fallback

def models (e : DiagramEntry) : List Model :=
  (Model.objectsIn (e.lookup "models")).map Model.ofJson

def toRecord (repository user : String) (e : DiagramEntry) : DiagramRecord :=
  { repository := e.text "repository" repository
    user := e.text "user" user
    models := e.models
    createdAt := e.text "created_at" ""
    updatedAt := e.text "updated_at" "" }

def ofRecord (r : DiagramRecord) : DiagramEntry :=
  [("repository", .str r.repository), ("user", .str r.user),
    ("models", .arr (r.models.map Model.toJson)), ("created_at", .str r.createdAt),
    ("updated_at", .str r.updatedAt)]

def holds (name value : String) (e : DiagramEntry) : Bool :=
  match e.lookup name with
  | some (.str s) => s = value
  | _ => false

end DiagramEntry

/-- The entries by key, in the order of their first arrival. `unsaved` tells whether the file is out of
date; a store without a path has no file. -/
structure DiagramStore where
  path : Option Path := none
  entries : List (String × DiagramEntry) := []
  unsaved : Bool := false
  deriving Repr

namespace DiagramStore

def empty : DiagramStore := {}

def key (repository user : String) : String :=
  user ++ "::" ++ repository

def entryAt? (s : DiagramStore) (repository user : String) : Option DiagramEntry :=
  s.entries.lookup (key repository user)

def creationTime (now : String) : Option DiagramEntry → String
  | none => now
  | some e =>
      match e.lookup "created_at" with
      | some (.str s) => s
      | _ => now

def recordAt (s : DiagramStore) (now repository user : String) (models : List Model) :
    DiagramRecord :=
  { repository
    user
    models
    createdAt := creationTime now (s.entryAt? repository user)
    updatedAt := now }

def upsert (s : DiagramStore) (now repository user : String) (models : List Model) :
    DiagramRecord × DiagramStore :=
  let r := s.recordAt now repository user models
  (r, { s with
    entries := Json.put (key repository user) (.ofRecord r) s.entries
    unsaved := true })

theorem entryAt?_upsert_self (s : DiagramStore) (now repository user : String)
    (models : List Model) :
    (s.upsert now repository user models).2.entryAt? repository user =
      some (.ofRecord (s.recordAt now repository user models)) := by
  simp [upsert, entryAt?, Json.lookup_put_self]

theorem entryAt?_upsert_of_ne {repository user other owner : String} (s : DiagramStore)
    (now : String) (models : List Model) (h : key other owner ≠ key repository user) :
    (s.upsert now repository user models).2.entryAt? other owner = s.entryAt? other owner := by
  simp [upsert, entryAt?, Json.lookup_put_of_ne _ _ h]

def find? (s : DiagramStore) (repository user : String) : Option DiagramRecord :=
  match s.entryAt? repository user with
  | none => none
  | some [] => none
  | some e => some (e.toRecord repository user)

def notFound (repository : String) : String :=
  "No diagram stored for '" ++ repository ++ "'"

def get (s : DiagramStore) (repository user : String) : Except String DiagramRecord :=
  match s.find? repository user with
  | none => .error (notFound repository)
  | some r => .ok r

def insertNewest (r : DiagramRecord) : List DiagramRecord → List DiagramRecord
  | [] => [r]
  | q :: qs => if q.updatedAt ≤ r.updatedAt then r :: q :: qs else q :: insertNewest r qs

def newestFirst (rs : List DiagramRecord) : List DiagramRecord :=
  rs.foldr insertNewest []

def isOf (user : String) (repository : Option String) (entry : String × DiagramEntry) : Bool :=
  entry.2.holds "user" user && repository.all fun name => entry.2.holds "repository" name

def records (s : DiagramStore) (user : String) (repository : Option String) : List DiagramRecord :=
  newestFirst ((s.entries.filter (isOf user repository)).map fun (_, e) =>
    e.toRecord (e.text "repository" "") user)

def delete (s : DiagramStore) (repository user : String) : Bool × DiagramStore :=
  match s.entryAt? repository user with
  | none => (false, s)
  | some _ =>
      (true, { s with
        entries := Json.erase (key repository user) s.entries
        unsaved := true })

theorem delete_fst (s : DiagramStore) (repository user : String) :
    (s.delete repository user).1 = (s.entryAt? repository user).isSome := by
  cases h : s.entryAt? repository user <;> simp [delete, h]

theorem delete_eq {s : DiagramStore} {repository user : String} {found : Bool}
    (h : (s.entryAt? repository user).isSome = found) :
    s.delete repository user = (found, (s.delete repository user).2) :=
  Prod.ext ((s.delete_fst repository user).trans h) rfl

theorem entryAt?_delete_self (s : DiagramStore) (repository user : String) :
    (s.delete repository user).2.entryAt? repository user = none := by
  cases h : s.entryAt? repository user with
  | none => simp [delete, h]
  | some e =>
      simp only [delete, h]
      exact Json.lookup_erase_self _ _

theorem entryAt?_delete_of_ne {repository user other owner : String} (s : DiagramStore)
    (h : key other owner ≠ key repository user) :
    (s.delete repository user).2.entryAt? other owner = s.entryAt? other owner := by
  cases he : s.entryAt? repository user with
  | none => simp [delete, he]
  | some e =>
      simp only [delete, he]
      exact Json.lookup_erase_of_ne _ h

variable [Platform]

def version : Int := 1

def toJson (s : DiagramStore) : Json :=
  .obj [("version", .int version), ("entries", .obj (s.entries.map fun (k, e) => (k, .obj e)))]

def fileText (s : DiagramStore) : Except Json.Limit (List Char) :=
  s.toJson.sorted.written

def isVersion : Json → Bool
  | .int n => n = version
  | .float x => x.toInt? = some version
  | .bool b => b
  | _ => false

def entryOf? : Json → Option DiagramEntry
  | .obj members => if (members.lookup "models").isSome then some members else none
  | _ => none

def entriesOf (v : Json) : List (String × DiagramEntry) :=
  match v.get? "version", v.get? "entries" with
  | some n, some (.obj members) =>
      if isVersion n then members.filterMap fun (k, e) => (entryOf? e).map fun e => (k, e) else []
  | _, _ => []

inductive Fault where
  | path (f : FileTree.Fault)
  | encoding (f : Utf8.Fault)
  | json (f : Json.Fault) (text : List Char)
  | unwritable (l : Json.Limit)
  deriving DecidableEq, Repr

def Fault.message : Fault → String
  | .path f => f.message
  | .encoding f => f.message
  | .json f cs => f.message cs
  | .unwritable l => l.text

def entriesOfText (cs : List Char) : Except Fault (List (String × DiagramEntry)) :=
  match Json.parse cs with
  | .ok v => .ok (entriesOf v)
  | .error f => if f.isSyntax then .ok [] else .error (.json f cs)

def entriesOfBytes (bs : Bytes) : Except Fault (List (String × DiagramEntry)) :=
  match Utf8.decode bs with
  | .error f => .error (.encoding f)
  | .ok cs => entriesOfText (plainNewlines cs)

def load (tree : FileTree) (standing : Place) (path : Path) : Except Fault DiagramStore :=
  match tree.contentAt standing path with
  | .error (.resolve f) => .error (.path (.resolve f))
  | .error _ => .ok { path := some path }
  | .ok bs => (entriesOfBytes bs).map fun entries => { path := some path, entries }

/-- Writes the file if it is out of date. A failure leaves the tree with the directories made so far. -/
def persist (s : DiagramStore) (tree : FileTree) (standing : Place) :
    Except (Fault × FileTree) (DiagramStore × FileTree) :=
  match s.path with
  | none => .ok (s, tree)
  | some path =>
      if s.unsaved then do
        let tree ← (tree.makeDirectories standing path.parent).mapError fun (f, t) => (.path f, t)
        let text ← s.fileText.mapError fun l => (.unwritable l, tree)
        let tree ← (tree.writeContent standing path (Utf8.encode text)).mapError fun f =>
          (.path f, tree)
        return ({ s with unsaved := false }, tree)
      else .ok (s, tree)

theorem persist_of_no_path {s : DiagramStore} (h : s.path = none) (tree : FileTree)
    (standing : Place) : s.persist tree standing = .ok (s, tree) := by
  simp [persist, h]

end DiagramStore

end SchemaDiagram
