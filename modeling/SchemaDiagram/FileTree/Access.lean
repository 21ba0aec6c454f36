import SchemaDiagram.FileTree.Resolve
import SchemaDiagram.Text.Quoted

namespace SchemaDiagram.FileTree

open SchemaDiagram.Text

inductive Fault where
  | resolve (f : ResolveFault)
  | refused (r : Refusal) (path : String)
  deriving DecidableEq, Repr

def ResolveFault.message : ResolveFault → String
  | .embeddedNull => "embedded null byte"
  | .unknownHome => "Could not determine home directory."
  | .linkLoop p => "Symlink loop from " ++ String.ofList (inQuotes p.text.toList)

def Fault.message : Fault → String
  | .resolve f => f.message
  | .refused r path =>
      "[Errno " ++ Nat.repr r.number ++ "] " ++ r.text ++ ": " ++
        String.ofList (inQuotes path.toList)

def refuse {α : Type} (p : Path) (r : Refusal) : Except Fault α :=
  .error (.refused r p.text)

def contentAt (t : FileTree) (standing : Place) (p : Path) : Except Fault Bytes :=
  if !p.isNameable then .error (.resolve .embeddedNull)
  else match t.locate standing p with
    | .ok (.file content) => .ok content
    | .ok (.directory _) => refuse p .isDirectory
    | .ok (.link _) => refuse p .linkLoop
    | .error r => refuse p r

def isDirectoryAt (t : FileTree) (standing : Place) (p : Path) : Except Fault Bool :=
  if !p.isNameable then .ok false
  else match t.locate? standing p with
    | .ok u => .ok (u.any isDirectory)
    | .error r => refuse p r

def existsAt (t : FileTree) (standing : Place) (p : Path) : Except Fault Bool :=
  if !p.isNameable then .ok false
  else match t.locate? standing p with
    | .ok u => .ok u.isSome
    | .error r => refuse p r

def makeDirectory (t : FileTree) (standing : Place) (p : Path) : Except Refusal FileTree :=
  match p.names.getLast? with
  | none => .error .exists
  | some name =>
      if isLongPath p then .error .nameTooLong
      else
        match t.followNames .find linkLimit (p.start standing) p.names.dropLast with
        | .error r => .error r
        | .ok parent =>
            match t.find? parent with
            | none => .error .missing
            | some (.directory _) =>
                if isLongName name then .error .nameTooLong
                else if name = ".." || (t.find? (parent ++ [name])).isSome then .error .exists
                else .ok (insert empty (parent ++ [name]) t)
            | some _ => .error .notDirectory

def makeDirectoriesFrom (t : FileTree) (standing : Place) (p : Path) :
    Nat → Except (Fault × FileTree) FileTree
  | 0 => make t
  | fuel + 1 =>
      match t.makeDirectory standing p with
      | .error .missing =>
          if p.names.isEmpty then .error (.refused .missing p.text, t)
          else (t.makeDirectoriesFrom standing p.parent fuel).bind make
      | _ => make t
where
  make (t : FileTree) : Except (Fault × FileTree) FileTree :=
    match t.makeDirectory standing p with
    | .ok t => .ok t
    | .error r =>
        match t.isDirectoryAt standing p with
        | .ok true => .ok t
        | _ => .error (.refused r p.text, t)

def makeDirectories (t : FileTree) (standing : Place) (p : Path) :
    Except (Fault × FileTree) FileTree :=
  if p.isNameable then t.makeDirectoriesFrom standing p p.names.length
  else .error (.resolve .embeddedNull, t)

def updateFile (t : FileTree) (standing : Place) (p : Path) (change : Bytes → Bytes) :
    Except Fault FileTree :=
  if !p.isNameable then .error (.resolve .embeddedNull)
  else match t.follow .make standing p with
    | .error r => refuse p r
    | .ok place =>
        match t.find? place with
        | some (.file content) => .ok (insert (.file (change content)) place t)
        | some _ => refuse p .isDirectory
        | none =>
            match t.find? place.dropLast with
            | some (.directory _) => .ok (insert (.file (change [])) place t)
            | some _ => refuse p .notDirectory
            | none => refuse p .missing

def writeContent (t : FileTree) (standing : Place) (p : Path) (content : Bytes) :
    Except Fault FileTree :=
  t.updateFile standing p fun _ => content

def appendContent (t : FileTree) (standing : Place) (p : Path) (content : Bytes) :
    Except Fault FileTree :=
  t.updateFile standing p (· ++ content)

end SchemaDiagram.FileTree
