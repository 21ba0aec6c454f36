import SchemaDiagram.Decimal.Binary64

namespace SchemaDiagram.Config

structure Selector where
  extensions : List String := [".js", ".ts", ".mjs", ".cjs"]
  excludePatterns : List String :=
    ["node_modules", ".test.", ".spec.", "__tests__", "__mocks__", ".d.ts", "migrations", "seeders",
      "dist/", "build/", ".next/", ".git/"]
  modelDirs : List String :=
    ["/models/", "/model/", "/schemas/", "/schema/", "/entities/", "/entity/", "/collections/",
      "/db/", "/database/"]
  filenameHints : List String := ["model", "schema", "entity"]
  strongLimit : Nat := 30
  weakLimit : Nat := 40
  deriving DecidableEq, Repr, Inhabited

structure Fetch where
  workers : Nat := 8
  timeout : Option Binary64 := none
  deriving DecidableEq, Repr, Inhabited

def defaultApiUrl : String := "https://api.github.com"

structure GitHub where
  apiUrl : String := defaultApiUrl
  token : Option String := none
  requestTimeout : Binary64 := .ofInt 30
  deriving DecidableEq, Repr, Inhabited

end Config

structure Config where
  root : String
  selector : Config.Selector := {}
  lookback : Nat := 200
  fetch : Config.Fetch := {}
  github : Config.GitHub := {}
  excludePaths : List String := []
  deriving DecidableEq, Repr, Inhabited

end SchemaDiagram
