import SchemaDiagram.Config.Setting
import SchemaDiagram.Text.Blank
import SchemaDiagram.Text.Case

/-!
The settings that a document holds. What it does not say, or says in a way that cannot be used, is
left at its default.
-/

namespace SchemaDiagram

open SchemaDiagram.Text

namespace Config

open Setting SchemaDiagram.Yaml

def fileName : String := ".schemascope.yml"

def tokenVariables : List String :=
  ["SCHEMASCOPE_GITHUB_TOKEN", "GITHUB_TOKEN"]

def tokenFrom (environment : List (String × String)) : Option String :=
  tokenVariables.findSome? fun name =>
    (environment.lookup name).bind fun value => if value.isEmpty then none else some value

def extensionOf (s : String) : String :=
  match lower (trim s.toList) with
  | '.' :: cs => String.ofList ('.' :: cs)
  | cs => String.ofList ('.' :: cs)

def withoutSlashes (s : String) : String :=
  String.ofList (dropRightWhile (· = '/') s.toList)

def orDefault (fallback : String) : Option String → String
  | none => fallback
  | some s => if s.isEmpty then fallback else s

def Selector.ofValue (v : Value) : Except NumberFault Selector := do
  let setting (name : String) := Value.lookup name (section? v)
  let base : Selector := {}
  let extensions ← texts (setting "extensions")
  let exclude ← texts (setting "exclude_patterns")
  let extra ← texts (setting "extra_exclude_patterns")
  let modelDirs ← texts (setting "model_dirs")
  let hints ← texts (setting "filename_hints")
  return {
    extensions := orElse base.extensions (extensions.map extensionOf)
    excludePatterns := orElse base.excludePatterns exclude ++ extra
    modelDirs := orElse base.modelDirs modelDirs
    filenameHints := orElse base.filenameHints hints
    strongLimit := (count? (setting "strong_limit")).getD base.strongLimit
    weakLimit := (count? (setting "weak_limit")).getD base.weakLimit }

def Fetch.ofValue (v : Value) : Except NumberFault Fetch := do
  let setting (name : String) := Value.lookup name (section? v)
  let timeout ← float? (setting "timeout")
  return { workers := (count? (setting "workers")).getD 8, timeout }

def GitHub.ofValue (v : Value) : Except NumberFault GitHub := do
  let setting (name : String) := Value.lookup name (section? v)
  let url ← text? (setting "api_url")
  let token ← text? (setting "token")
  let timeout ← float? (setting "request_timeout")
  return {
    apiUrl := withoutSlashes (orDefault defaultApiUrl url)
    token
    requestTimeout := (timeout.filter (!·.isZero)).getD (.ofInt 30) }

def GitHub.withTokenFrom (environment : List (String × String)) (g : GitHub) : GitHub :=
  if (g.token.filter (!·.isEmpty)).isSome then g else { g with token := tokenFrom environment }

inductive DocumentFault where
  | noMapping
  | number (f : NumberFault)
  deriving DecidableEq, Repr

def DocumentFault.message : DocumentFault → String
  | .noMapping => fileName ++ " must contain a mapping at the root"
  | .number f => f.message

def defaults (root : String) (environment : List (String × String)) : Config :=
  { root, github := GitHub.withTokenFrom environment {} }

def ofEntries (root : String) (environment : List (String × String))
    (entries : List (Value × Value)) : Except NumberFault Config := do
  let part (name : String) := Value.lookup name entries
  let selector ← Selector.ofValue (part "selector")
  let lookback := (count? (Value.lookup "lookback" (section? (part "extraction")))).getD 200
  let fetch ← Fetch.ofValue (part "fetch")
  let github ← GitHub.ofValue (part "github")
  let excludePaths ← texts (part "exclude_paths")
  return {
    root, selector, lookback, fetch, github := github.withTokenFrom environment, excludePaths }

def ofValue (root : String) (environment : List (String × String)) (v : Value) :
    Except DocumentFault Config :=
  match v with
  | .map entries => (ofEntries root environment entries).mapError .number
  | v => if v.isTruthy then .error .noMapping else .ok (defaults root environment)

end Config

end SchemaDiagram
