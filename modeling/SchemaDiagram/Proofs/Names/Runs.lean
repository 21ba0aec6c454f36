import SchemaDiagram.Proofs.Names.Candidates
import SchemaDiagram.Schema.Extraction

/-!
Names over a whole run: several batches of source files that share one registry.
-/

namespace SchemaDiagram.Extraction

structure Batch where
  files : List SourceFile
  lookback : Int

namespace Batch

def found (b : Batch) : List Model :=
  b.files.flatMap (ofFile · b.lookback)

end Batch

def run (registry : NameRegistry) : List Batch → List (List Model) × NameRegistry
  | [] => ([], registry)
  | b :: bs =>
      let (models, registry) := ofFiles b.files registry b.lookback
      let (rest, registry) := run registry bs
      (models :: rest, registry)

def content (m : Model) : String × List Field :=
  (m.filePath, m.fields)

theorem merge_append (registry : NameRegistry) (ms ns : List Model) :
    merge registry (ms ++ ns) =
      ((merge registry ms).1 ++ (merge (merge registry ms).2 ns).1,
        (merge (merge registry ms).2 ns).2) := by
  induction ms generalizing registry with
  | nil => rfl
  | cons m ms ih => simp [merge, ih]

theorem taken_merge (registry : NameRegistry) (ms : List Model) :
    (merge registry ms).2.taken =
      ((merge registry ms).1.map Model.name).reverse ++ registry.taken := by
  induction ms generalizing registry with
  | nil => rfl
  | cons m ms ih => simp [merge, ih, NameRegistry.taken_claim]

theorem nodup_merge {registry : NameRegistry} (ms : List Model) (h : registry.taken.Nodup) :
    (merge registry ms).2.taken.Nodup := by
  induction ms generalizing registry with
  | nil => exact h
  | cons m ms ih =>
      have hfree : (registry.claim m.name m.filePath).1 ∉ registry.taken := by
        have hcontains := registry.contains_claimed m.name m.filePath
        simpa [NameRegistry.contains] using hcontains
      exact ih (List.nodup_cons.2 ⟨hfree, h⟩)

theorem merge_keeps_iff (registry : NameRegistry) (ms : List Model) (i : Nat) {m own : Model}
    (hm : (merge registry ms).1[i]? = some m) (hown : ms[i]? = some own) :
    m.name = own.name ↔ registry.contains own.name = false ∧
      own.name ∉ ((merge registry ms).1.take i).map Model.name := by
  induction ms generalizing registry i with
  | nil => simp at hown
  | cons first ms ih =>
      cases i with
      | zero =>
          obtain rfl : first = own := by simpa using hown
          have hname : m.name = (registry.claim first.name first.filePath).1 := by
            rw [merge, List.getElem?_cons_zero, Option.some.injEq] at hm
            rw [← hm]
          rw [hname, NameRegistry.claim_eq_self_iff]
          simp
      | succ i =>
          -- The registry of the later models has the name that the first one was given.
          rw [merge, List.getElem?_cons_succ] at hm
          rw [List.getElem?_cons_succ] at hown
          rw [ih _ i hm hown, NameRegistry.contains_claim]
          simp only [merge, List.take_succ_cons, List.map_cons, List.mem_cons, not_or,
            Bool.or_eq_false_iff, beq_eq_false_iff_ne, ne_eq]
          tauto

theorem ofFiles_eq_merge (b : Batch) (registry : NameRegistry) :
    ofFiles b.files registry b.lookback = merge registry b.found := rfl

theorem run_eq_merge (registry : NameRegistry) (batches : List Batch) :
    (run registry batches).1.flatten = (merge registry (batches.flatMap Batch.found)).1 ∧
      (run registry batches).2 = (merge registry (batches.flatMap Batch.found)).2 := by
  induction batches generalizing registry with
  | nil => exact ⟨rfl, rfl⟩
  | cons b bs ih =>
      obtain ⟨hmodels, hregistry⟩ := ih (merge registry b.found).2
      rw [List.flatMap_cons, merge_append]
      constructor
      · rw [run, List.flatten_cons, ofFiles_eq_merge, hmodels]
      · rw [run, ofFiles_eq_merge, hregistry]

theorem content_run (registry : NameRegistry) (batches : List Batch) :
    (run registry batches).1.map (·.map content) = batches.map (·.found.map content) := by
  induction batches generalizing registry with
  | nil => rfl
  | cons b bs ih =>
      have hbatch : (merge registry b.found).1.map content = b.found.map content :=
        map_fields_merge registry b.found
      rw [run, ofFiles_eq_merge, List.map_cons, List.map_cons, hbatch, ih]

theorem run_names_unique (batches : List Batch) :
    ((run .empty batches).1.flatten.map Model.name).Nodup ∧
    (∀ name, (run .empty batches).2.contains name = true ↔
      name ∈ (run .empty batches).1.flatten.map Model.name) ∧
    (run .empty batches).2.size = (run .empty batches).1.flatten.length ∧
    (run .empty batches).1.map (·.map content) = batches.map (·.found.map content) ∧
    ∀ i m own, (run .empty batches).1.flatten[i]? = some m →
      (batches.flatMap Batch.found)[i]? = some own →
      (m.name = own.name ↔
        ∀ earlier ∈ (run .empty batches).1.flatten.take i, earlier.name ≠ own.name) := by
  obtain ⟨hmodels, hregistry⟩ := run_eq_merge .empty batches
  have htaken : (run .empty batches).2.taken =
      ((run .empty batches).1.flatten.map Model.name).reverse := by
    rw [hmodels, hregistry, taken_merge, NameRegistry.empty, List.append_nil]
  refine ⟨?_, ?_, ?_, content_run .empty batches, ?_⟩
  · have hnodup : (run .empty batches).2.taken.Nodup := by
      rw [hregistry]
      exact nodup_merge _ List.nodup_nil
    rw [htaken] at hnodup
    exact List.nodup_reverse.1 hnodup
  · intro name
    rw [NameRegistry.contains, htaken, List.contains_iff_mem, List.mem_reverse]
  · rw [NameRegistry.size, htaken, List.length_reverse, List.length_map]
  · intro i m own hm hown
    rw [hmodels] at hm ⊢
    rw [merge_keeps_iff .empty _ i hm hown]
    have hempty : NameRegistry.empty.contains own.name = false := rfl
    simp only [hempty, true_and, List.mem_map, not_exists, not_and, ne_eq]

def users : List Batch :=
  [⟨[⟨"a/user.js", "new Schema(\x7b at: Date \x7d)"⟩], 200⟩,
   ⟨[⟨"b/user.js", "new Schema(\x7b at: Date \x7d)"⟩], 200⟩]

def laterUser (name : String) : Model :=
  { name, filePath := "b/user.js", fields := [{ name := "at", type := .date }] }

theorem laterUser_renamed :
    (run .empty users).1.flatten[1]? = some (laterUser "User_user.js") ∧
    (users.flatMap Batch.found)[1]? = some (laterUser "User") ∧
    ((laterUser "User_user.js").name = (laterUser "User").name ↔
      ∀ earlier ∈ (run .empty users).1.flatten.take 1, earlier.name ≠ (laterUser "User").name) :=
  ⟨rfl, rfl, (run_names_unique users).2.2.2.2 1 _ _ rfl rfl⟩

end SchemaDiagram.Extraction
