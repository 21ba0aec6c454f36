import SchemaDiagram.Decimal.Numeral
import SchemaDiagram.Encoding.Detection
import SchemaDiagram.Json.Finite
import SchemaDiagram.Json.Writer
import SchemaDiagram.Pipeline

namespace SchemaDiagram.Service

variable [Platform]

inductive ProblemKind where
  | invalidJson
  | missing
  | noObject
  | noText
  | noUnicode
  | noNumber
  | noNumberText
  | noTruthValue
  | noTruthText
  deriving DecidableEq, Repr

def ProblemKind.name : ProblemKind → String
  | .invalidJson => "json_invalid"
  | .missing => "missing"
  | .noObject => "model_attributes_type"
  | .noText => "string_type"
  | .noUnicode => "string_unicode"
  | .noNumber => "float_type"
  | .noNumberText => "float_parsing"
  | .noTruthValue => "bool_type"
  | .noTruthText => "bool_parsing"

inductive Place where
  | body
  | member (name : String)
  | position (n : Nat)
  deriving DecidableEq, Repr

structure Problem where
  kind : ProblemKind
  place : Place
  given : Json := .null
  deriving Repr

def Problem.isTellable (p : Problem) : Bool :=
  p.given.isFinite && Platform.isText p.given.plain

structure Wish where
  path : Option String := none
  repository : Option String := none
  branch : String := "main"
  token : Option String := none
  orm : String := Pipeline.supportedOrm
  user : String := "anonymous"
  timeout : Option Binary64 := none
  includeGraph : Bool := false
  deriving DecidableEq, Repr

def text (v : Json) : Except ProblemKind String :=
  match v with
  | .str s => if Platform.isText s.toList then .ok s else .error .noUnicode
  | _ => .error .noText

def optional {α : Type} (read : Json → Except ProblemKind α) (v : Json) :
    Except ProblemKind (Option α) :=
  match v with
  | .null => .ok none
  | v => (read v).map some

def isEdgeBlank (c : Char) : Bool :=
  let n := c.toNat
  Text.isBlank c && !(0x1C ≤ n && n ≤ 0x1F)

def stripped (cs : List Char) : List Char :=
  Text.dropRightWhile isEdgeBlank (cs.dropWhile isEdgeBlank)

def isUnderscore (c : Char) : Bool :=
  c = '_'

def hasDoubledUnderscore : List Char → Bool
  | '_' :: '_' :: _ => true
  | _ :: cs => hasDoubledUnderscore cs
  | [] => false

def plainNumber? (cs : List Char) : Option Binary64 :=
  if cs.any fun c => c = '_' || 0x80 ≤ c.toNat || Numeral.isEdgeBlank c then none
  else Numeral.float? cs

def numberOfText? (cs : List Char) : Option Binary64 :=
  (plainNumber? (stripped cs)).orElse fun _ =>
    if cs.head? = some '_' || cs.getLast? = some '_' || hasDoubledUnderscore cs then none
    else plainNumber? (cs.filter (!isUnderscore ·))

def number (v : Json) : Except ProblemKind Binary64 :=
  match v with
  | .float x => .ok x
  | .bool b => .ok (.ofInt (if b then 1 else 0))
  | .int n =>
      match Binary64.ofInt n with
      | .infinite _ => .error .noNumber
      | x => .ok x
  | .str s => (numberOfText? s.toList).elim (.error .noNumberText) .ok
  | _ => .error .noNumber

def trueWords : List String := ["1", "t", "y", "on", "yes", "true"]
def falseWords : List String := ["0", "f", "n", "no", "off", "false"]

def truthLimit : Int := 0x8000000000000000

def truthOfInt (n : Int) : Except ProblemKind Bool :=
  if n = 0 then .ok false else if n = 1 then .ok true else .error .noTruthText

def truth (v : Json) : Except ProblemKind Bool :=
  match v with
  | .bool b => .ok b
  | .str s =>
      let word := String.ofList (s.toList.map Char.toLower)
      if word ∈ trueWords then .ok true
      else if word ∈ falseWords then .ok false
      else .error .noTruthText
  | .int n => if -truthLimit ≤ n ∧ n < truthLimit then truthOfInt n else .error .noTruthValue
  | .float x =>
      match x.toInt? with
      | some n => if -truthLimit < n ∧ n < truthLimit then truthOfInt n else .error .noTruthValue
      | none => .error .noTruthValue
  | _ => .error .noTruthValue

def member {α : Type} (members : List (String × Json)) (name : String) (missing : α)
    (read : Json → Except ProblemKind α) : Except ProblemKind α :=
  match members.lookup name with
  | none => .ok missing
  | some v => read v

def problemIn {α : Type} (members : List (String × Json)) (name : String) :
    Except ProblemKind α → List Problem
  | .ok _ => []
  | .error kind => [⟨kind, .member name, (members.lookup name).getD .null⟩]

def Wish.ofMembers (members : List (String × Json)) : Except (List Problem) Wish :=
  let base : Wish := {}
  let path := member members "path" none (optional text)
  let repository := member members "repository" none (optional text)
  let branch := member members "branch" base.branch text
  let token := member members "token" none (optional text)
  let orm := member members "orm" base.orm text
  let user := member members "user" base.user text
  let timeout := member members "timeout" none (optional number)
  let includeGraph := member members "include_graph" false truth
  match path, repository, branch, token, orm, user, timeout, includeGraph with
  | .ok path, .ok repository, .ok branch, .ok token, .ok orm, .ok user, .ok timeout,
      .ok includeGraph =>
      .ok { path, repository, branch, token, orm, user, timeout, includeGraph }
  | _, _, _, _, _, _, _, _ =>
      .error
        (problemIn members "path" path ++ problemIn members "repository" repository ++
          problemIn members "branch" branch ++ problemIn members "token" token ++
          problemIn members "orm" orm ++ problemIn members "user" user ++
          problemIn members "timeout" timeout ++
          problemIn members "include_graph" includeGraph)

def Wish.ofBody : Option Json → Except (List Problem) Wish
  | none => .error [⟨.missing, .body, .null⟩]
  | some (.obj members) => Wish.ofMembers members
  | some v => .error [⟨.noObject, .body, v⟩]

inductive BodyFault where
  | syntaxAt (position : Nat)
  | unreadable
  deriving DecidableEq, Repr

def parseBody (bs : Bytes) : Except BodyFault (Option Json) :=
  if bs.isEmpty then .ok none
  else
    match Detection.text? bs with
    | none => .error .unreadable
    | some cs =>
        match Json.parse cs with
        | .ok v => .ok (some v)
        | .error f => .error (if f.isSyntax then .syntaxAt (cs.length - f.left) else .unreadable)

end SchemaDiagram.Service
