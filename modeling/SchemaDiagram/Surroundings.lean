import SchemaDiagram.Config.File
import SchemaDiagram.DiagramStore
import SchemaDiagram.Pipeline
import SchemaDiagram.Repository.GitHub
import SchemaDiagram.Repository.Local

/-!
What the program finds around it: files, a directory to stand in, environment variables, a network
and a clock. Scans of the repositories that it can reach from there.
-/

namespace SchemaDiagram

variable [Platform]

structure Surroundings where
  tree : FileTree
  standing : Place
  environment : List (String × String) := []
  network : Http.Network
  clock : Timestamp

inductive Source where
  | directory (r : LocalRepository)
  | gitHub (r : GitHubRepository)
  deriving Repr

namespace Source

def identity : Source → String
  | .directory r => r.identity
  | .gitHub r => r.identity

def toRepository (network : Http.Network) : Source → Repository
  | .directory r => r.toRepository
  | .gitHub r => r.toRepository network

def requests : Source → Pipeline.Outcome → List Http.Request
  | .directory _, _ => []
  | .gitHub r, o => if o.listed then r.requests o.started else []

def ofSlug? (c : Config) (slug branch : String) (token : Option String) : Option Source :=
  (GitHubRepository.ownerAndName? slug).map fun (owner, name) =>
    .gitHub
      { owner
        name
        branch
        token := (token.filter (!·.isEmpty)).orElse fun _ => c.github.token
        apiUrl := c.github.apiUrl
        requestTimeout := c.github.requestTimeout }

end Source

namespace Surroundings

def home (s : Surroundings) : Option String :=
  s.environment.lookup Config.homeVariable

def readConfig (s : Surroundings) (p : Path) : Except Config.Fault Config :=
  Config.read s.tree s.standing s.environment p

def directory (s : Surroundings) (c : Config) (path : String) :
    Except FileTree.ResolveFault Source :=
  (LocalRepository.ofPath s.tree s.standing s.home path c.excludePaths).map .directory

def scan (s : Surroundings) (c : Config) (source : Source) (orm : String)
    (timeout : Option Binary64) : Pipeline.Outcome :=
  (Pipeline.ofConfig c).run (source.toRepository s.network) (some orm) (timeout.map .binary)
    NameRegistry.empty

def tick (s : Surroundings) : Surroundings :=
  { s with clock := ⟨s.clock.microseconds + Timestamp.secondLength⟩ }

def keep (s : Surroundings) (store : DiagramStore) (repository user : String)
    (models : List Model) : DiagramStore × Surroundings :=
  ((store.upsert s.clock.text repository user models).2, s.tick)

def persist (s : Surroundings) (store : DiagramStore) :
    Except (DiagramStore.Fault × Surroundings) (DiagramStore × Surroundings) :=
  match store.persist s.tree s.standing with
  | .ok (store, tree) => .ok (store, { s with tree })
  | .error (f, tree) => .error (f, { s with tree })

end Surroundings

end SchemaDiagram
