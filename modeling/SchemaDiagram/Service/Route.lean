
namespace SchemaDiagram.Service

inductive Method where
  | get
  | head
  | post
  | delete
  | other
  deriving DecidableEq, Repr

def Method.ofName (name : String) : Method :=
  match name with
  | "GET" => .get
  | "HEAD" => .head
  | "POST" => .post
  | "DELETE" => .delete
  | _ => .other

inductive Resource where
  | health
  | generation
  | diagrams
  | diagram (repository : String)
  deriving DecidableEq, Repr

def Resource.allows : Resource → Method → Bool
  | .health, m => m = .get
  | .generation, m => m = .post
  | .diagrams, m => m = .get
  | .diagram _, m => m = .get || m = .delete

namespace Resource

def withoutEnd (cs : List Char) : List Char :=
  if cs.getLast? = some '\n' then cs.dropLast else cs

def diagram? (cs : List Char) : Option Resource :=
  match "/diagrams/".toList.isPrefixOf? cs with
  | none => none
  | some rest =>
      let name := withoutEnd rest
      if name.contains '\n' then none else some (.diagram (String.ofList name))

def named (cs : List Char) : List Resource :=
  let path := String.ofList (withoutEnd cs)
  (if path = "/health" then [.health] else []) ++
    (if path = "/diagrams/generate" then [.generation] else []) ++
    (if path = "/diagrams" then [.diagrams] else []) ++
    (diagram? cs).toList

def withoutSlashes (cs : List Char) : List Char :=
  (cs.reverse.dropWhile (· = '/')).reverse

def isMoved (cs : List Char) : Bool :=
  cs.getLast? = some '/' && !(named (withoutSlashes cs)).isEmpty

end Resource

inductive Target where
  | resource (r : Resource)
  | moved
  | notAllowed
  | notFound
  deriving DecidableEq, Repr

def Target.ofRequest (m : Method) (path : List Char) : Target :=
  match Resource.named path with
  | [] => if Resource.isMoved path then .moved else .notFound
  | rs =>
      match rs.find? (·.allows m) with
      | some r => .resource r
      | none => .notAllowed

end SchemaDiagram.Service
