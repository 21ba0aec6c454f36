import SchemaDiagram.Config.File
import SchemaDiagram.Proofs.Fetching.Scans
import SchemaDiagram.Proofs.Json.Lawful

/-!
Settings of any kind leave room for at least one file of each kind and one worker, and a scan reads
no more files than they say.
-/

namespace SchemaDiagram

namespace Config

open Setting SchemaDiagram.Yaml

structure Bounded (c : Config) : Prop where
  strongLimit : 1 ≤ c.selector.strongLimit
  weakLimit : 1 ≤ c.selector.weakLimit
  lookback : 1 ≤ c.lookback
  workers : 1 ≤ c.fetch.workers

theorem bounded_defaults (root : String) (environment : List (String × String)) :
    (defaults root environment).Bounded :=
  ⟨Nat.succ_pos 29, Nat.succ_pos 39, Nat.succ_pos 199, Nat.succ_pos 7⟩

theorem one_le_count (v : Value) {fallback : Nat} (h : 1 ≤ fallback) :
    1 ≤ (count? v).getD fallback := by
  cases hcount : count? v with
  | none => exact h
  | some n => exact count?_pos hcount

theorem limits_ofValue {v : Value} {s : Selector} (h : Selector.ofValue v = .ok s) :
    1 ≤ s.strongLimit ∧ 1 ≤ s.weakLimit := by
  obtain ⟨extensions, -, h⟩ := bind_eq_ok_iff.1 h
  obtain ⟨exclude, -, h⟩ := bind_eq_ok_iff.1 h
  obtain ⟨extra, -, h⟩ := bind_eq_ok_iff.1 h
  obtain ⟨modelDirs, -, h⟩ := bind_eq_ok_iff.1 h
  obtain ⟨hints, -, h⟩ := bind_eq_ok_iff.1 h
  obtain rfl := Except.ok.inj h
  exact ⟨one_le_count _ (by decide), one_le_count _ (by decide)⟩

theorem workers_ofValue {v : Value} {f : Fetch} (h : Fetch.ofValue v = .ok f) : 1 ≤ f.workers := by
  obtain ⟨timeout, -, h⟩ := bind_eq_ok_iff.1 h
  obtain rfl := Except.ok.inj h
  exact one_le_count _ (by decide)

theorem bounded_ofEntries {root : String} {environment : List (String × String)}
    {entries : List (Value × Value)} {c : Config} (h : ofEntries root environment entries = .ok c) :
    c.Bounded := by
  obtain ⟨selector, hselector, h⟩ := bind_eq_ok_iff.1 h
  obtain ⟨fetch, hfetch, h⟩ := bind_eq_ok_iff.1 h
  obtain ⟨github, -, h⟩ := bind_eq_ok_iff.1 h
  obtain ⟨excludePaths, -, h⟩ := bind_eq_ok_iff.1 h
  obtain rfl := Except.ok.inj h
  obtain ⟨hstrong, hweak⟩ := limits_ofValue hselector
  exact ⟨hstrong, hweak, one_le_count _ (by decide), workers_ofValue hfetch⟩

theorem bounded_ofValue {root : String} {environment : List (String × String)} {v : Value}
    {c : Config} (h : ofValue root environment v = .ok c) : c.Bounded := by
  rw [ofValue.eq_def] at h
  split at h
  · exact bounded_ofEntries (mapError_eq_ok_iff.1 h)
  · split at h
    · simp at h
    · obtain rfl := Except.ok.inj h
      exact bounded_defaults root environment

theorem bounded_ofBytes [Platform] {root file : String} {environment : List (String × String)}
    {bs : Bytes}
    {c : Config} (h : ofBytes root file environment bs = .ok c) : c.Bounded := by
  obtain ⟨cs, -, h⟩ := bind_eq_ok_iff.1 h
  obtain ⟨v, -, h⟩ := bind_eq_ok_iff.1 h
  exact bounded_ofValue (mapError_eq_ok_iff.1 h)

theorem bounded_read [Platform] {tree : FileTree} {standing : Place}
    {environment : List (String × String)}
    {p : Path} {c : Config} (h : read tree standing environment p = .ok c) : c.Bounded := by
  rw [read] at h
  split at h
  · obtain ⟨home, -, h⟩ := bind_eq_ok_iff.1 h
    obtain ⟨path, -, h⟩ := bind_eq_ok_iff.1 h
    obtain ⟨file, -, h⟩ := bind_eq_ok_iff.1 h
    obtain ⟨root, -, h⟩ := bind_eq_ok_iff.1 h
    obtain ⟨isThere, -, h⟩ := bind_eq_ok_iff.1 h
    cases isThere with
    | true =>
        obtain ⟨content, -, h⟩ := bind_eq_ok_iff.1 h
        exact bounded_ofBytes h
    | false =>
        obtain rfl := Except.ok.inj h
        exact bounded_defaults root.text environment
  · obtain ⟨home, hhome, -⟩ := bind_eq_ok_iff.1 h
    simp at hhome

end Config

namespace Config.Selector

def firstOf (p : TreeEntry → Bool) (limit : Nat) (entries : List TreeEntry) : List String :=
  (entries.zipIdx.filter fun x => p x.1 && (entries.take x.2).countP p < limit).map (·.1.path)

theorem map_filter_zipIdx (p : TreeEntry → Bool) (limit : Nat) (before entries : List TreeEntry) :
    ((entries.zipIdx before.length).filter fun x =>
        p x.1 && ((before ++ entries).take x.2).countP p < limit).map (·.1.path) =
      ((entries.filter p).take (limit - before.countP p)).map TreeEntry.path := by
  induction entries generalizing before with
  | nil => simp
  | cons e es ih =>
      have hrest := ih (before ++ [e])
      rw [List.length_append, List.length_singleton, List.append_assoc, List.singleton_append,
        List.countP_append, List.countP_singleton] at hrest
      have hfront : (before ++ e :: es).take before.length = before := List.take_left
      rw [List.zipIdx_cons, List.filter_cons, hfront]
      cases he : p e with
      | false => simpa [he] using hrest
      | true =>
          by_cases hroom : before.countP p < limit
          · have hnext : limit - before.countP p = limit - (before.countP p + 1) + 1 := by omega
            simpa [he, hroom, hnext] using hrest
          · have hnone : limit - before.countP p = 0 := by omega
            have hnext : limit - (before.countP p + 1) = 0 := by omega
            simpa [he, hroom, hnone, hnext] using hrest

theorem firstOf_eq_take (p : TreeEntry → Bool) (limit : Nat) (entries : List TreeEntry) :
    firstOf p limit entries = ((entries.filter p).map TreeEntry.path).take limit := by
  have h := map_filter_zipIdx p limit [] entries
  rw [List.countP_nil, Nat.sub_zero, List.map_take] at h
  exact h

section

variable {s : Selector} {entries : List TreeEntry} {path : String}

theorem filter_paths (s : Selector) (entries : List TreeEntry) (kind : String → Bool) :
    ((entries.filter s.isEligible).map TreeEntry.path).filter kind =
      (entries.filter fun e => s.isEligible e && kind e.path).map TreeEntry.path := by
  rw [List.filter_map, List.filter_filter]
  exact congrArg _ (List.filter_congr fun e _ => Bool.and_comm _ _)

theorem strong_eq_firstOf (s : Selector) (entries : List TreeEntry) :
    (s.select entries).strong =
      firstOf (fun e => s.isEligible e && s.isModelFile e.path) s.strongLimit entries := by
  rw [firstOf_eq_take, ← filter_paths s entries s.isModelFile, select]

theorem weak_eq_firstOf (s : Selector) (entries : List TreeEntry) :
    (s.select entries).weak =
      firstOf (fun e => s.isEligible e && !s.isModelFile e.path) s.weakLimit entries := by
  rw [firstOf_eq_take, ← filter_paths s entries (!s.isModelFile ·), select]

theorem isModelFile_of_mem_weak (h : path ∈ (s.select entries).weak) :
    s.isModelFile path = false := by
  have hkind := (List.mem_filter.1 (List.mem_of_mem_take h)).2
  simpa using hkind

theorem length_paths_le (s : Selector) (entries : List TreeEntry) :
    (s.select entries).paths.length ≤ s.strongLimit + s.weakLimit := by
  rw [Selection.paths, List.length_append]
  exact Nat.add_le_add (s.length_strong_le entries) (s.length_weak_le entries)

end

end Config.Selector

namespace Pipeline

open Fetching (Pool)

section

variable {p : Pipeline} {r : Repository} {entries : List TreeEntry}

theorem started_prefix (hlisting : r.listing = .ok entries) (orm : Option String)
    (timeout : Option Seconds) (registry : NameRegistry) :
    (p.run r orm timeout registry).started <+: p.paths entries := by
  have hscan : (p.scan r timeout registry).started <+: p.paths entries := by
    rw [scan, hlisting]
    dsimp only
    split <;> exact Fetching.takenBy_prefix _ _ _
  rw [run.eq_def]
  split
  · exact hscan
  · split
    · exact hscan
    · exact List.nil_prefix

theorem mem_paths_of_reaches {c : Pool} (h : p.Reaches r entries c) {t : Fetching.Task}
    (ht : t ∈ c.running ++ c.delivered.map Prod.fst) : t.1 ∈ p.paths entries := by
  have hsound : c.Sound r.deliver (p.paths entries) := Pool.Reached.sound h
  exact Fetching.mem_iff_exists_task.2
    ⟨t, hsound.perm.mem_iff.1 (List.mem_append_right _ ht), rfl⟩

theorem length_begun_le {c : Pool} (h : p.Reaches r entries c) :
    (c.running ++ c.delivered.map Prod.fst).length ≤ (p.paths entries).length := by
  have hsound : c.Sound r.deliver (p.paths entries) := Pool.Reached.sound h
  have hlength := hsound.perm.length_eq
  rw [List.length_append, Fetching.tasks, List.length_zipIdx] at hlength
  omega

theorem reads_candidates_only [Platform] {tree : FileTree} {standing : Place}
    {environment : List (String × String)} {path : Path} {c : Config}
    (h : Config.read tree standing environment path = .ok c) (entries : List TreeEntry) :
    c.Bounded ∧
    (c.selector.select entries).strong =
      Config.Selector.firstOf (fun e => c.selector.isEligible e && c.selector.isModelFile e.path)
        c.selector.strongLimit entries ∧
    (c.selector.select entries).weak =
      Config.Selector.firstOf (fun e => c.selector.isEligible e && !c.selector.isModelFile e.path)
        c.selector.weakLimit entries ∧
    (∀ candidate ∈ (c.selector.select entries).weak,
      c.selector.isModelFile candidate = false) ∧
    (∀ candidate ∈ (c.selector.select entries).strong,
      c.selector.isExcluded candidate = false) ∧
    ∀ r : Repository, r.listing = .ok entries →
      (∀ orm timeout registry,
        ((ofConfig c).run r orm timeout registry).started <+:
            (c.selector.select entries).paths ∧
          ((ofConfig c).run r orm timeout registry).started.length ≤
            c.selector.strongLimit + c.selector.weakLimit) ∧
      ∀ pool : Pool, (ofConfig c).Reaches r entries pool →
        (∀ t ∈ pool.running ++ pool.delivered.map Prod.fst,
          t.1 ∈ (c.selector.select entries).paths) ∧
        (pool.running ++ pool.delivered.map Prod.fst).length ≤
          c.selector.strongLimit + c.selector.weakLimit := by
  have hlimits := c.selector.length_paths_le entries
  refine ⟨Config.bounded_read h, c.selector.strong_eq_firstOf entries,
    c.selector.weak_eq_firstOf entries, fun _ => Config.Selector.isModelFile_of_mem_weak, ?_, ?_⟩
  · intro candidate hcandidate
    exact Config.Selector.isExcluded_of_isModelFile
      (Config.Selector.isModelFile_of_mem_strong hcandidate)
  · intro r hlisting
    refine ⟨fun orm timeout registry => ?_, fun pool hpool => ?_⟩
    · have hstarted := started_prefix (p := ofConfig c) hlisting orm timeout registry
      exact ⟨hstarted, hstarted.length_le.trans hlimits⟩
    · exact ⟨fun t ht => mem_paths_of_reaches hpool ht, (length_begun_le hpool).trans hlimits⟩

end

def oddSettings : FileTree :=
  let content := "selector:\n  strong_limit: '2'\n  weak_limit: -3\n  model_dirs: [/core/]\n" ++
    "fetch:\n  workers: true\nextraction:\n  lookback: 0x10\n"
  .directory [(".schemascope.yml", .file (Utf8.encode content.toList))]

def oddConfig : Config :=
  { root := "/"
    selector := { modelDirs := ["/core/"], strongLimit := 2 }
    lookback := 16 }

def coreEntries : List TreeEntry :=
  [⟨"core", .directory⟩, ⟨"lib/a.js", .file⟩, ⟨"core/a.js", .file⟩, ⟨"core/a.test.js", .file⟩,
    ⟨"core/b.ts", .file⟩, ⟨"core/c.ts", .file⟩, ⟨"core/d.txt", .file⟩]

def core : Repository :=
  { identity := "memory/core", listing := .ok coreEntries, deliver := fun _ => .text "" }

theorem core_reads_candidates_only :
    Config.read oddSettings [] [] (Path.ofText "") = .ok oddConfig ∧ core.listing = .ok coreEntries ∧
    (oddConfig.selector.select coreEntries).strong = ["core/a.js", "core/b.ts"] ∧
    (oddConfig.selector.select coreEntries).weak = ["lib/a.js", "core/a.test.js"] ∧
    ((ofConfig oddConfig).run core none none .empty).started.length ≤ 2 + 40 := by
  have hfound : (Config.read oddSettings [] [] (Path.ofText "")).toOption = some oddConfig := by
    decide +kernel
  have hread : Config.read oddSettings [] [] (Path.ofText "") = .ok oddConfig := by
    cases h : Config.read oddSettings [] [] (Path.ofText "") with
    | error f => simp [h, Except.toOption] at hfound
    | ok c =>
        rw [h] at hfound
        exact congrArg Except.ok (Option.some.inj hfound)
  obtain ⟨-, hstrong, hweak, -, -, hruns⟩ := reads_candidates_only hread coreEntries
  exact ⟨hread, rfl, hstrong.trans (by decide +kernel), hweak.trans (by decide +kernel),
    ((hruns core rfl).1 none none .empty).2⟩

end Pipeline

end SchemaDiagram
