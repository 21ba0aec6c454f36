import SchemaDiagram.Diagram
import SchemaDiagram.Service.Body
import SchemaDiagram.Service.Route
import SchemaDiagram.Surroundings

/-!
The service: requests for scans and for the diagrams that are kept, and its replies.
-/

namespace SchemaDiagram.Service

variable [Platform]

structure Request where
  method : Method
  path : String
  query : List (String × String) := []
  body : Bytes := []
  deriving DecidableEq, Repr

inductive Content where
  | json (v : Json)
  | text (s : String)
  | problems (ps : List Problem)
  | unsaid
  deriving Repr

structure Reply where
  status : Nat
  content : Content
  deriving Repr

namespace Reply

def ok (v : Json) : Reply :=
  ⟨200, .json v.finite⟩

def detail (status : Nat) (message : String) : Reply :=
  ⟨status, .json (.obj [("detail", .str message)])⟩

def broken : Reply :=
  ⟨500, .text "Internal Server Error"⟩

def empty (status : Nat) : Reply :=
  ⟨status, .text ""⟩

def unsaid : Reply :=
  ⟨400, .unsaid⟩

def rejected (ps : List Problem) : Reply :=
  if ps.all Problem.isTellable then ⟨422, .problems ps⟩
  else if ps.all fun p => p.given.isFinite then unsaid
  else detail 400 "Out of range float values are not JSON compliant"

def ofConfigFault (f : Config.Fault) : Reply :=
  match f.faultClass with
  | .value => detail 400 f.message
  | _ => broken

def ofStoreFault (f : DiagramStore.Fault) : Reply :=
  match f with
  | .unwritable .digits => detail 400 f.message
  | .path (.resolve .embeddedNull) => detail 400 f.message
  | _ => broken

def isTold (r : DiagramRecord) : Bool :=
  [r.repository, r.user, r.createdAt, r.updatedAt].all fun s => Platform.isText s.toList

def ofRecords (rs : List DiagramRecord) (v : Json) : Reply :=
  if rs.all isTold then .ok v else unsaid

/-- The reply as it is sent. One that is no text cannot be, and that counts as a bad value. -/
def sent (r : Reply) : Reply :=
  match r.content with
  | .json v =>
      match Utf8.encodingFault? v.plain with
      | some reason => detail 400 reason
      | none => r
  | _ => r

end Reply

structure State where
  surroundings : Surroundings
  store : DiagramStore

def noRepository : String :=
  "Either 'path' or 'repository' is required"

def sourceOf (s : Surroundings) (c : Config) (w : Wish) : Except Reply Source :=
  match w.repository.filter (!·.isEmpty), w.path.filter (!·.isEmpty) with
  | some slug, _ =>
      match Source.ofSlug? c slug w.branch w.token with
      | some source => .ok source
      | none => .error (.detail 400 (GitHubRepository.badSlug slug))
  | none, some path =>
      match s.directory c path with
      | .ok source => .ok source
      | .error .embeddedNull => .error (.detail 400 FileTree.ResolveFault.embeddedNull.message)
      | .error _ => .error .broken
  | none, none => .error (.detail 400 noRepository)

def resultJson (w : Wish) (r : ScanResult) : Except Diagram.Fault Json := do
  let graph ← if w.includeGraph then Diagram.toJson r.models else .ok .null
  return .obj
    [("supported", .bool r.supported), ("models", .arr (r.models.map Model.toJson)),
      ("message", match r.message with
        | none => .null
        | some message => .str message),
      ("graph", graph)]

def keep (st : State) (source : Source) (w : Wish) (r : ScanResult) :
    State × Option DiagramStore.Fault :=
  if r.found then
    let (store, s) := st.surroundings.keep st.store source.identity w.user r.models
    match s.persist store with
    | .ok (store, s) => (⟨s, store⟩, none)
    | .error (f, s) => (⟨s, store⟩, some f)
  else (st, none)

def scan (st : State) (c : Config) (source : Source) (w : Wish) :
    Reply × State × List Http.Request :=
  let outcome := st.surroundings.scan c source w.orm w.timeout
  let requests := source.requests outcome
  match outcome.result with
  | .error (.listing (.unavailable reason)) => (.detail 502 reason, st, requests)
  | .error (.listing (.noText reason)) => (.detail 400 reason, st, requests)
  | .error _ => (.broken, st, requests)
  | .ok r =>
      match keep st source w r with
      | (st, some f) => (.ofStoreFault f, st, requests)
      | (st, none) =>
          match resultJson w r with
          | .ok v => (.ok v, st, requests)
          | .error _ => (.broken, st, requests)

def generate (st : State) (body : Bytes) : Reply × State × List Http.Request :=
  match parseBody body with
  | .error (.syntaxAt position) => (.rejected [⟨.invalidJson, .position position, .null⟩], st, [])
  | .error .unreadable => (.detail 400 "There was an error parsing the body", st, [])
  | .ok v =>
      match st.surroundings.readConfig (Path.ofText "") with
      | .error f => (.ofConfigFault f, st, [])
      | .ok c =>
          match Wish.ofBody v with
          | .error ps => (.rejected ps, st, [])
          | .ok w =>
              match sourceOf st.surroundings c w with
              | .error reply => (reply, st, [])
              | .ok source => scan st c source w

def userOf (r : Request) : String :=
  (r.query.lookup "user").getD "anonymous"

def listing (st : State) (r : Request) : Reply :=
  let found := st.store.records (userOf r) (r.query.lookup "repository")
  .ofRecords found (.obj [("diagrams", .arr (found.map DiagramRecord.toJson))])

def lookup (st : State) (repository : String) (r : Request) : Reply :=
  match st.store.get repository (userOf r) with
  | .ok found => .ofRecords [found] found.toJson
  | .error message => .detail 404 message

def delete (st : State) (repository : String) (r : Request) : Reply × State :=
  match st.store.delete repository (userOf r) with
  | (false, _) => (.detail 404 (DiagramStore.notFound repository), st)
  | (true, store) =>
      match st.surroundings.persist store with
      | .ok (store, s) => (.ok (.obj [("deleted", .bool true)]), ⟨s, store⟩)
      | .error (f, s) => (.ofStoreFault f, ⟨s, store⟩)

def answer (st : State) (r : Request) : Reply × State × List Http.Request :=
  match Target.ofRequest r.method r.path.toList with
  | .notFound => (.detail 404 "Not Found", st, [])
  | .notAllowed => (.detail 405 "Method Not Allowed", st, [])
  | .moved => (.empty 307, st, [])
  | .resource .health => (.ok (.obj [("status", .str "ok")]), st, [])
  | .resource .generation => generate st r.body
  | .resource .diagrams => (listing st r, st, [])
  | .resource (.diagram repository) =>
      if r.method = .delete then
        let (reply, st) := delete st repository r
        (reply, st, [])
      else (lookup st repository r, st, [])

def handle (st : State) (r : Request) : Reply × State × List Http.Request :=
  let (reply, st, requests) := answer st r
  (if r.method = .head then .empty reply.sent.status else reply.sent, st, requests)

theorem handle_of_ne_head (st : State) (r : Request) (h : r.method ≠ .head) :
    (handle st r).1 = (answer st r).1.sent := by
  simp [handle, h]

end SchemaDiagram.Service
