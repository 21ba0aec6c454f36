import SchemaDiagram.Encoding.Base64
import SchemaDiagram.Encoding.Percent
import SchemaDiagram.Http.Basic
import SchemaDiagram.Json.Display
import SchemaDiagram.Json.Reader
import SchemaDiagram.Repository.Basic

namespace SchemaDiagram

open SchemaDiagram.Text

structure GitHubRepository where
  owner : String
  name : String
  branch : String := "main"
  token : Option String := none
  apiUrl : String := Config.defaultApiUrl
  requestTimeout : Binary64 := .ofInt 30
  deriving DecidableEq, Repr

namespace GitHubRepository

variable [Platform]

def topic : String := "sources.github"

def withoutOuterSlashes (cs : List Char) : List Char :=
  dropRightWhile (· = '/') (cs.dropWhile (· = '/'))

def ownerAndName? (slug : String) : Option (String × String) :=
  match splitAt '/' (withoutOuterSlashes (trim slug.toList)) with
  | [owner, name] =>
      if owner.isEmpty || name.isEmpty then none
      else some (String.ofList owner, String.ofList name)
  | _ => none

def badSlug (slug : String) : String :=
  "Expected OWNER/REPO, got '" ++ slug ++ "'"

def identity (r : GitHubRepository) : String :=
  r.owner ++ "/" ++ r.name ++ "@" ++ r.branch

def quoted (safe : List Char) (s : String) : String :=
  String.ofList (Percent.quote safe s.toList)

def baseUrl (r : GitHubRepository) : String :=
  String.ofList (dropRightWhile (· = '/') r.apiUrl.toList) ++ "/repos/" ++ r.owner ++ "/" ++ r.name

def treeUrl (r : GitHubRepository) : String :=
  r.baseUrl ++ "/git/trees/" ++ quoted [] r.branch ++ "?recursive=1"

def contentUrl (r : GitHubRepository) (path : String) : String :=
  r.baseUrl ++ "/contents/" ++ quoted ['/'] path ++ "?ref=" ++ quoted [] r.branch

def headers (r : GitHubRepository) : List (String × String) :=
  ("accept", "application/vnd.github.v3+json") ::
    match r.token with
    | none => []
    | some token => if token.isEmpty then [] else [("authorization", "Bearer " ++ token)]

def request? (r : GitHubRepository) (url : String) : Option Http.Request :=
  Http.request? url r.headers r.requestTimeout

inductive Fault where
  | http (f : Http.Fault)
  | encoding (f : Utf8.Fault)
  | json (f : Json.Fault) (body : List Char)
  deriving DecidableEq, Repr

def Fault.message : Fault → String
  | .http f => f.message
  | .encoding f => f.message
  | .json f body => f.message body

def Fault.nesting? : Fault → Option String
  | .json f body => if f.isTooDeep then some (f.message body) else none
  | _ => none

def document (network : Http.Network) (r : GitHubRepository) (url : String) :
    Except Fault Json := do
  let bs ← (Http.get network url r.headers r.requestTimeout).mapError .http
  let cs ← (Utf8.decode bs).mapError .encoding
  (Json.parse cs).mapError fun f => .json f cs

def entryKind? (v : Json) : Option EntryKind :=
  match v with
  | .str "blob" => some .file
  | .str "tree" => some .directory
  | _ => none

def entryOf? (v : Json) : Option TreeEntry :=
  match v.get? "path", (v.get? "type").bind entryKind? with
  | some (.str path), some kind => some { path, kind }
  | _, _ => none

def entriesOf (v : Json) : Except Repository.ListingFault (List TreeEntry) :=
  match v with
  | .arr items => .ok (items.filterMap entryOf?)
  | .int n => if n = 0 then .ok [] else .error (.noList "int")
  | .bool b => if b then .error (.noList "bool") else .ok []
  | .float x => if x.isZero then .ok [] else .error (.noList "float")
  | _ => .ok []

def unavailable (f : Fault) : String :=
  match f with
  | .http (.status code _) =>
      "GitHub API error: " ++ String.ofList (intText code)
  | .http (.unreachable reason) => "GitHub API unreachable: " ++ reason
  | f => "GitHub tree request failed: " ++ f.message

def quotingFault? (texts : List String) : Option String :=
  texts.findSome? fun s => Utf8.encodingFault? s.toList

def listing (network : Http.Network) (r : GitHubRepository) :
    Except Repository.ListingFault (List TreeEntry) :=
  match quotingFault? [r.branch] with
  | some reason => .error (.noText reason)
  | none =>
      match document network r r.treeUrl with
      | .error f =>
          match f.nesting? with
          | some reason => .error (.tooDeep reason)
          | none => .error (.unavailable (unavailable f))
      | .ok (.obj members) => entriesOf ((members.lookup "tree").getD .null)
      | .ok _ => .error (.unavailable "GitHub API returned an unexpected tree payload")

def listingLogs (network : Http.Network) (r : GitHubRepository) : Logs :=
  match quotingFault? [r.branch], document network r r.treeUrl with
  | none, .ok v =>
      if ((v.get? "truncated").getD .null).isTruthy then
        [⟨.warning, topic, "Tree listing for " ++ r.identity ++ " was truncated by GitHub",
          "MainThread"⟩]
      else []
  | _, _ => []

def decodeContent (v : Json) : Except Base64.Fault String :=
  match v.get? "encoding", v.get? "content" with
  | some (.str "base64"), some (.str content) =>
      match Base64.decode content.toList with
      | .error .notAscii => .error .notAscii
      | .error _ => .ok ""
      | .ok bs =>
          match Utf8.decode bs with
          | .ok cs => .ok (String.ofList cs)
          | .error _ => .ok ""
  | _, _ => .ok ""

inductive FetchFault where
  | notAscii
  | tooDeep (reason : String)
  | noText (reason : String)
  deriving DecidableEq, Repr

def FetchFault.message : FetchFault → String
  | .notAscii => "string argument should contain only ASCII characters"
  | .tooDeep reason => reason
  | .noText reason => reason

def fetch (r : GitHubRepository) (network : Http.Network) (path : String) :
    Except FetchFault String :=
  match quotingFault? [path, r.branch] with
  | some reason => .error (.noText reason)
  | none =>
      match document network r (r.contentUrl path) with
      | .error f =>
          match f.nesting? with
          | some reason => .error (.tooDeep reason)
          | none => .ok ""
      | .ok v => (decodeContent v).mapError fun _ => .notAscii

def deliver (network : Http.Network) (r : GitHubRepository) (path : String) :
    Repository.Delivery :=
  match r.fetch network path with
  | .ok content => .text content
  | .error f => .failed f.message

def deliveryLogs (network : Http.Network) (r : GitHubRepository) (path : String) : Logs :=
  match quotingFault? [path, r.branch], document network r (r.contentUrl path) with
  | none, .error f =>
      if f.nesting?.isSome then []
      else [⟨.debug, topic, "Failed to fetch " ++ path ++ ": " ++ f.message, "schemascope-fetch_0"⟩]
  | _, _ => []

def requests (r : GitHubRepository) (started : List String) : List Http.Request :=
  let asked (texts : List String) (url : String) : List Http.Request :=
    if (quotingFault? texts).isSome then [] else (r.request? url).toList
  asked [r.branch] r.treeUrl ++
    started.flatMap fun path => asked [path, r.branch] (r.contentUrl path)

def toRepository (network : Http.Network) (r : GitHubRepository) : Repository :=
  { identity := r.identity
    listing := r.listing network
    listingLogs := r.listingLogs network
    deliver := r.deliver network
    deliveryLogs := r.deliveryLogs network }

end GitHubRepository

end SchemaDiagram
