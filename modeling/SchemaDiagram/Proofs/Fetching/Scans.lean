import SchemaDiagram.Pipeline
import SchemaDiagram.Proofs.Fetching.Pool
import SchemaDiagram.Proofs.Names.Runs

/-!
What scans find in the texts that they got: it hangs neither on the order in which texts come nor,
for the other files, on texts that do not come, as long as the wait for them can begin.
-/

namespace SchemaDiagram

open Repository (Delivery)

section

variable {text whole : String → String} {missing : String → Bool}

end

namespace Extraction

end Extraction

namespace Pipeline

open Extraction (content)
open Fetching (Pool workersFor textOf)

def paths (p : Pipeline) (entries : List TreeEntry) : List String :=
  (p.selector.select entries).paths

def resultFrom (p : Pipeline) (entries : List TreeEntry) (text : String → String)
    (registry : NameRegistry) : ScanResult :=
  resultOf
    (Extraction.ofFiles ((p.selector.select entries).materialise text) registry p.lookback).1

/-- The result of a scan that had read so many of its paths, with these texts, when its wait ended. -/
def resultOn (p : Pipeline) (entries : List TreeEntry) (timeout : Option Seconds) (done : Nat)
    (text : String → String) (registry : NameRegistry) : Except Fault ScanResult :=
  match Fetching.waitFault? (p.limit timeout) done (p.paths entries).length with
  | some reason => .error (.waiting reason)
  | none => .ok (p.resultFrom entries text registry)

def Reaches (p : Pipeline) (r : Repository) (entries : List TreeEntry) (c : Pool) : Prop :=
  Pool.Reached (workersFor p.workers (p.paths entries)) r.deliver (p.paths entries) c

section

variable {p : Pipeline} {r whole : Repository} {entries : List TreeEntry}

theorem result_run (hlisting : r.listing = .ok entries) (timeout : Option Seconds)
    (registry : NameRegistry) :
    (p.run r (some supportedOrm) timeout registry).result =
      p.resultOn entries timeout (Fetching.completed r.deliver p.workers (p.paths entries)).length
        (Fetching.content r.deliver p.workers (p.paths entries)) registry := by
  rw [run, isSupported_supportedOrm, if_pos rfl, scan, hlisting, resultOn]
  simp only [paths]
  generalize Fetching.waitFault? _ _ _ = fault
  cases fault <;> rfl

theorem resultOn_complete (timeout : Option Seconds) (text : String → String)
    (registry : NameRegistry) :
    p.resultOn entries timeout (p.paths entries).length text registry =
      .ok (p.resultFrom entries text registry) := by
  rw [resultOn, Fetching.waitFault?_self]

theorem schedule_independent {workers : Nat} {deliver : String → Delivery} {paths : List String}
    {c : Pool} (hreached : Pool.Reached (workersFor workers paths) deliver paths c)
    (hcomplete : c.IsComplete) :
    (∀ path, (c.contents paths).lookup path = (Fetching.inTurn deliver paths).lookup path) ∧
    ∀ (p : Pipeline) (r : Repository) (entries : List TreeEntry) (timeout : Option Seconds)
      (registry : NameRegistry),
      r.listing = .ok entries → r.deliver = deliver → p.paths entries = paths →
      (p.run r (some supportedOrm) timeout registry).result =
        .ok (p.resultFrom entries (c.text paths) registry) := by
  have hsound : c.Sound deliver paths := Pool.Reached.sound hreached
  refine ⟨hsound.lookup_contents_of_complete hcomplete, ?_⟩
  rintro p r entries timeout registry hlisting rfl rfl
  rw [result_run hlisting, hsound.length_completed hcomplete, resultOn_complete,
    hsound.text_of_complete hcomplete p.workers]

end

def doubledPaths : List String :=
  ["a.js", "b.js", "a.js"]

def doubled : Repository :=
  { identity := "memory/doubled"
    listing := .ok (doubledPaths.map fun path => ⟨path, .file⟩)
    deliver := fun path =>
      if path = "a.js" then .text "new Schema(\x7b at: Date \x7d)" else .failed "gone" }

def doubledCut : Pool :=
  { waiting := []
    running := []
    delivered :=
      [("a.js", 0), ("a.js", 2), ("b.js", 1)].map fun t => (t, doubled.deliver t.1) }

theorem doubled_in_turn :
    Pool.Reached (workersFor 2 doubledPaths) doubled.deliver doubledPaths doubledCut ∧
      doubledCut.IsComplete ∧
      (doubledCut.contents doubledPaths).lookup "b.js" =
        (Fetching.inTurn doubled.deliver doubledPaths).lookup "b.js" ∧
      (run {} doubled (some supportedOrm) none .empty).result =
        .ok (resultFrom {} (doubledPaths.map fun path => ⟨path, .file⟩)
          (doubledCut.text doubledPaths) .empty) := by
  have hreached : Pool.Reached (workersFor 2 doubledPaths) doubled.deliver doubledPaths
      doubledCut := by
    refine .head (.take (by decide)) (.head (.take (by decide)) ?_)
    refine .head (.finish (t := ("b.js", 1)) (by decide) (by decide)) ?_
    refine .head (.take (by decide)) ?_
    refine .head (.finish (t := ("a.js", 2)) (by decide) (by decide)) (.head ?_ .refl)
    exact .finish (t := ("a.js", 0)) (by decide) (by decide)
  have hpaths : paths {} (doubledPaths.map fun path => ⟨path, .file⟩) = doubledPaths := by
    decide +kernel
  obtain ⟨hturn, hrun⟩ := schedule_independent hreached ⟨rfl, rfl⟩
  exact ⟨hreached, ⟨rfl, rfl⟩, hturn "b.js", hrun {} doubled _ none .empty rfl rfl hpaths⟩

section

variable {p : Pipeline} {r whole : Repository} {entries : List TreeEntry}

end

end Pipeline

end SchemaDiagram
