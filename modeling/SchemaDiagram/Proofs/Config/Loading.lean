import SchemaDiagram.Config.File
import SchemaDiagram.Proofs.Config.Settings
import SchemaDiagram.Proofs.Encoding.Utf8
import SchemaDiagram.Proofs.FileTree.Proper

/-!
Settings from a file that holds a mapping. They are read unless an integer in them is too long or too
large for its place, and what is no number where one is asked for leaves the default.
-/

namespace SchemaDiagram.Config

open Setting SchemaDiagram.Text SchemaDiagram.Yaml

def settingIn (part name : String) (entries : List (Value × Value)) : Value :=
  Value.lookup name (section? (Value.lookup part entries))

def listNames : List String :=
  ["extensions", "exclude_patterns", "extra_exclude_patterns", "model_dirs", "filename_hints"]

/-- Whether no integer of the settings is too long or too large for its place. -/
structure Fits (entries : List (Value × Value)) : Prop where
  lists : ∀ name ∈ listNames, ¬ HasLong (settingIn "selector" name entries)
  excludePaths : ¬ HasLong (Value.lookup "exclude_paths" entries)
  apiUrl : ¬ IsLong (settingIn "github" "api_url" entries)
  token : ¬ IsLong (settingIn "github" "token" entries)
  timeout : ¬ IsVast (settingIn "fetch" "timeout" entries)
  requestTimeout : ¬ IsVast (settingIn "github" "request_timeout" entries)

/-- Whether each limit, count and time limit is what its setting means, and the default if that means
no number. For a request no time at all counts as none. -/
structure FallsBack (entries : List (Value × Value)) (c : Config) : Prop where
  strongLimit :
    Chosen (Counts (settingIn "selector" "strong_limit" entries)) 30 c.selector.strongLimit
  weakLimit : Chosen (Counts (settingIn "selector" "weak_limit" entries)) 40 c.selector.weakLimit
  lookback : Chosen (Counts (settingIn "extraction" "lookback" entries)) 200 c.lookback
  workers : Chosen (Counts (settingIn "fetch" "workers" entries)) 8 c.fetch.workers
  timeout : Chosen (fun t => ∃ x, t = some x ∧ Lasts (settingIn "fetch" "timeout" entries) x) none
    c.fetch.timeout
  requestTimeout : Chosen (fun x => Lasts (settingIn "github" "request_timeout" entries) x ∧
    x.isZero = false) (.ofInt 30) c.github.requestTimeout

section

variable {v : Value} {entries : List (Value × Value)} {root : String}
  {environment : List (String × String)} {c : Config}

theorem exists_selector_iff : (∃ s, Selector.ofValue v = .ok s) ↔
    ∀ name ∈ listNames, ¬ HasLong (Value.lookup name (section? v)) := by
  simp only [listNames, List.forall_mem_cons, List.not_mem_nil, IsEmpty.forall_iff, implies_true,
    and_true, ← exists_texts_iff]
  exact exists_bind_eq_ok_iff fun _ => exists_bind_eq_ok_iff fun _ => exists_bind_eq_ok_iff fun _ =>
    exists_bind_eq_ok_iff fun _ => exists_bind_pure_iff

theorem exists_fetch_iff : (∃ f, Fetch.ofValue v = .ok f) ↔
    ¬ IsVast (Value.lookup "timeout" (section? v)) := by
  rw [← exists_float?_iff]
  exact exists_bind_pure_iff

theorem exists_gitHub_iff : (∃ g, GitHub.ofValue v = .ok g) ↔
    ¬ IsLong (Value.lookup "api_url" (section? v)) ∧ ¬ IsLong (Value.lookup "token" (section? v)) ∧
    ¬ IsVast (Value.lookup "request_timeout" (section? v)) := by
  simp only [← exists_text?_iff, ← exists_float?_iff]
  exact exists_bind_eq_ok_iff fun _ => exists_bind_eq_ok_iff fun _ => exists_bind_pure_iff

theorem exists_ofEntries_iff : (∃ c, ofEntries root environment entries = .ok c) ↔ Fits entries := by
  have hparts : (∃ c, ofEntries root environment entries = .ok c) ↔
      (∃ s, Selector.ofValue (Value.lookup "selector" entries) = .ok s) ∧
      (∃ f, Fetch.ofValue (Value.lookup "fetch" entries) = .ok f) ∧
      (∃ g, GitHub.ofValue (Value.lookup "github" entries) = .ok g) ∧
      ∃ found, texts (Value.lookup "exclude_paths" entries) = .ok found :=
    exists_bind_eq_ok_iff fun _ => exists_bind_eq_ok_iff fun _ => exists_bind_eq_ok_iff fun _ =>
      exists_bind_pure_iff
  rw [hparts, exists_selector_iff, exists_fetch_iff, exists_gitHub_iff, exists_texts_iff]
  constructor
  · rintro ⟨hlists, htimeout, ⟨hurl, htoken, hrequest⟩, hpaths⟩
    exact ⟨hlists, hpaths, hurl, htoken, htimeout, hrequest⟩
  · rintro ⟨hlists, hpaths, hurl, htoken, htimeout, hrequest⟩
    exact ⟨hlists, htimeout, ⟨hurl, htoken, hrequest⟩, hpaths⟩

theorem limits_selector {s : Selector} (h : Selector.ofValue v = .ok s) :
    Chosen (Counts (Value.lookup "strong_limit" (section? v))) 30 s.strongLimit ∧
    Chosen (Counts (Value.lookup "weak_limit" (section? v))) 40 s.weakLimit := by
  obtain ⟨extensions, -, h⟩ := bind_eq_ok_iff.1 h
  obtain ⟨exclude, -, h⟩ := bind_eq_ok_iff.1 h
  obtain ⟨extra, -, h⟩ := bind_eq_ok_iff.1 h
  obtain ⟨modelDirs, -, h⟩ := bind_eq_ok_iff.1 h
  obtain ⟨hints, -, h⟩ := bind_eq_ok_iff.1 h
  obtain rfl := Except.ok.inj h
  exact ⟨chosen_getD (fun _ => count?_eq_some_iff) 30, chosen_getD (fun _ => count?_eq_some_iff) 40⟩

theorem limits_fetch {f : Fetch} (h : Fetch.ofValue v = .ok f) :
    Chosen (Counts (Value.lookup "workers" (section? v))) 8 f.workers ∧
    Chosen (fun t => ∃ x, t = some x ∧ Lasts (Value.lookup "timeout" (section? v)) x) none
      f.timeout := by
  obtain ⟨timeout, htimeout, h⟩ := bind_eq_ok_iff.1 h
  obtain rfl := Except.ok.inj h
  refine ⟨chosen_getD (fun _ => count?_eq_some_iff) 8, ⟨?_, fun hnone => ?_⟩⟩
  · rintro - ⟨x, rfl, hx⟩
    exact Except.ok.inj (htimeout.symm.trans (float?_eq_some_iff.2 hx))
  · refine Option.eq_none_iff_forall_ne_some.2 fun x hx => hnone _ ⟨x, rfl, ?_⟩
    exact float?_eq_some_iff.1 (htimeout.trans (congrArg Except.ok hx))

theorem limit_gitHub {g : GitHub} (h : GitHub.ofValue v = .ok g) :
    Chosen (fun x => Lasts (Value.lookup "request_timeout" (section? v)) x ∧ x.isZero = false)
      (.ofInt 30) g.requestTimeout := by
  obtain ⟨url, -, h⟩ := bind_eq_ok_iff.1 h
  obtain ⟨token, -, h⟩ := bind_eq_ok_iff.1 h
  obtain ⟨timeout, htimeout, h⟩ := bind_eq_ok_iff.1 h
  obtain rfl := Except.ok.inj h
  refine chosen_getD (fun x => ?_) _
  rw [Option.filter_eq_some_iff, ← float?_eq_some_iff, htimeout]
  simp

theorem requestTimeout_withTokenFrom (g : GitHub) :
    (g.withTokenFrom environment).requestTimeout = g.requestTimeout := by
  rw [GitHub.withTokenFrom]
  split <;> rfl

theorem fallsBack_ofEntries (h : ofEntries root environment entries = .ok c) :
    FallsBack entries c := by
  obtain ⟨selector, hselector, h⟩ := bind_eq_ok_iff.1 h
  obtain ⟨fetch, hfetch, h⟩ := bind_eq_ok_iff.1 h
  obtain ⟨gitHub, hgitHub, h⟩ := bind_eq_ok_iff.1 h
  obtain ⟨excludePaths, -, h⟩ := bind_eq_ok_iff.1 h
  obtain rfl := Except.ok.inj h
  obtain ⟨hstrong, hweak⟩ := limits_selector hselector
  obtain ⟨hworkers, htimeout⟩ := limits_fetch hfetch
  have hlookback := chosen_getD (o := count? (settingIn "extraction" "lookback" entries))
    (fun _ => count?_eq_some_iff) 200
  refine ⟨hstrong, hweak, hlookback, hworkers, htimeout, ?_⟩
  rw [requestTimeout_withTokenFrom]
  exact limit_gitHub hgitHub

end

theorem existsAt_of_contentAt {tree : FileTree} {standing : Place} {p : Path} {content : Bytes}
    (h : tree.contentAt standing p = .ok content) : tree.existsAt standing p = .ok true := by
  rw [FileTree.contentAt] at h
  split at h
  · simp at h
  · next hnameable =>
      split at h
      · next found hlocate =>
          rw [FileTree.existsAt, if_neg hnameable, FileTree.locate?_eq_some_iff.2 hlocate]
          rfl
      all_goals simp [FileTree.refuse] at h

structure LeadsTo (tree : FileTree) (standing : Place) (environment : List (String × String))
    (p file root : Path) (content : Bytes) : Prop where
  found : ∃ q r, p.expandHome (environment.lookup homeVariable) = some q ∧
    filePath tree standing q = .ok r ∧ tree.resolve standing r = .ok file
  root : tree.resolve [] file.parent = .ok root
  content : tree.contentAt [] file = .ok content

def HoldsMapping [Platform] (file : Path) (content : Bytes) (entries : List (Value × Value)) : Prop :=
  ∃ cs, content = Utf8.encode cs ∧ valueOf file.name (plainNewlines cs) = .ok (.map entries)

section

variable {tree : FileTree} {standing : Place} {environment : List (String × String)}
  {p file root : Path} {content : Bytes} {entries : List (Value × Value)} {c : Config}

theorem read_of_leadsTo [Platform] (h : LeadsTo tree standing environment p file root content) :
    read tree standing environment p = ofBytes root.text file.name environment content := by
  obtain ⟨⟨q, r, hhome, hpath, hfile⟩, hroot, hcontent⟩ := h
  have hthere := existsAt_of_contentAt hcontent
  simp only [read, read.resolved, bind, Except.bind, Except.mapError, hhome, hpath, hfile, hroot,
    hthere, hcontent, if_true]

theorem ofBytes_eq_ok_iff [Platform] {rootText : String} (h : HoldsMapping file content entries) :
    ofBytes rootText file.name environment content = .ok c ↔
      ofEntries rootText environment entries = .ok c := by
  obtain ⟨cs, rfl, hvalue⟩ := h
  rw [ofBytes, Utf8.decode_encode]
  change ofText rootText file.name environment (plainNewlines cs) = .ok c ↔ _
  rw [ofText, hvalue]
  exact mapError_eq_ok_iff.trans mapError_eq_ok_iff

theorem loads_iff_fits [Platform] (hfile : LeadsTo tree standing environment p file root content)
    (hentries : HoldsMapping file content entries) :
    ((∃ c, read tree standing environment p = .ok c) ↔ Fits entries) ∧
    ∀ c, read tree standing environment p = .ok c → FallsBack entries c := by
  simp only [read_of_leadsTo hfile, ofBytes_eq_ok_iff hentries]
  exact ⟨exists_ofEntries_iff, fun c => fallsBack_ofEntries⟩

end

def settingsTree (content : List Char) : FileTree :=
  .directory [(fileName, .file (Utf8.encode content))]

def settingsFile : Path :=
  Path.ofText "/.schemascope.yml"

theorem leadsTo_settingsFile (content : List Char) : LeadsTo (settingsTree content) [] []
    (Path.ofText "") settingsFile (Path.ofText "/") (Utf8.encode content) where
  found := ⟨Path.ofText "", Path.ofText fileName, by decide +kernel, rfl, rfl⟩
  root := rfl
  content := rfl

def oddText : List Char :=
  "fetch:\n  workers: true\n  timeout: 1".toList ++ List.replicate 308 '0' ++
    "\ngithub:\n  request_timeout: [1]\n".toList

def oddEntries : List (Value × Value) :=
  [(.str "fetch", .map [(.str "workers", .bool true), (.str "timeout", .int (10 ^ 308))]),
    (.str "github", .map [(.str "request_timeout", .list [.int 1])])]

/-- Whether `oddEntries` were read. Values have no decidable equality, so they are taken apart here. -/
def readsOdd : Except Fault Value → Bool
  | .ok (.map [(.str a, .map [(.str b, .bool c), (.str d, .int m)]),
      (.str e, .map [(.str f, .list [.int n])])]) =>
      [a, b, d, e, f] == ["fetch", "workers", "timeout", "github", "request_timeout"] && c &&
        m == 10 ^ 308 && n == 1
  | _ => false

theorem eq_of_readsOdd {x : Except Fault Value} (h : readsOdd x = true) :
    x = .ok (.map oddEntries) := by
  rw [readsOdd.eq_def] at h
  split at h
  · simp only [Bool.and_eq_true, beq_iff_eq, List.cons.injEq, and_true] at h
    obtain ⟨⟨⟨⟨rfl, rfl, rfl, rfl, rfl⟩, rfl⟩, rfl⟩, rfl⟩ := h
    rfl
  · cases h

theorem holdsMapping_oddText : HoldsMapping settingsFile (Utf8.encode oddText) oddEntries :=
  ⟨oddText, rfl, eq_of_readsOdd (by decide +kernel)⟩

theorem fits_oddEntries : Fits oddEntries where
  lists _ _ := not_hasLong_null
  excludePaths := not_hasLong_null
  apiUrl := not_isLong_null
  token := not_isLong_null
  timeout h := by
    have hint : settingIn "fetch" "timeout" oddEntries = .int (10 ^ 308) := rfl
    rw [hint, isVast_int] at h
    exact absurd h (by decide +kernel)
  requestTimeout := by
    rintro ⟨n, ⟨⟩, -⟩

theorem oddSettings_fallBack :
    LeadsTo (settingsTree oddText) [] [] (Path.ofText "") settingsFile (Path.ofText "/")
      (Utf8.encode oddText) ∧
    HoldsMapping settingsFile (Utf8.encode oddText) oddEntries ∧
    ∃ c, read (settingsTree oddText) [] [] (Path.ofText "") = .ok c ∧ c.fetch.workers = 8 ∧
      c.fetch.timeout = some (.ofInt (10 ^ 308)) ∧ c.github.requestTimeout = .ofInt 30 := by
  have hfile := leadsTo_settingsFile oddText
  obtain ⟨hloads, hfalls⟩ := loads_iff_fits hfile holdsMapping_oddText
  obtain ⟨c, hc⟩ := hloads.2 fits_oddEntries
  have h := hfalls c hc
  refine ⟨hfile, holdsMapping_oddText, c, hc, h.workers.passedOver ?_, h.timeout.used _ ?_,
    h.requestTimeout.passedOver ?_⟩
  · rintro n ⟨⟩
  · exact ⟨_, rfl, .int fits_oddEntries.timeout⟩
  · rintro x ⟨⟨⟩, -⟩

def vastText : List Char :=
  "fetch:\n  timeout: 1".toList ++ List.replicate 400 '0'

def vastEntries : List (Value × Value) :=
  [(.str "fetch", .map [(.str "timeout", .int (10 ^ 400))])]

def readsVast : Except Fault Value → Bool
  | .ok (.map [(.str a, .map [(.str b, .int n)])]) =>
      [a, b] == ["fetch", "timeout"] && n == 10 ^ 400
  | _ => false

theorem eq_of_readsVast {x : Except Fault Value} (h : readsVast x = true) :
    x = .ok (.map vastEntries) := by
  rw [readsVast.eq_def] at h
  split at h
  · simp only [Bool.and_eq_true, beq_iff_eq, List.cons.injEq, and_true] at h
    obtain ⟨⟨rfl, rfl⟩, rfl⟩ := h
    rfl
  · cases h

theorem vastTimeout_refused :
    LeadsTo (settingsTree vastText) [] [] (Path.ofText "") settingsFile (Path.ofText "/")
      (Utf8.encode vastText) ∧
    HoldsMapping settingsFile (Utf8.encode vastText) vastEntries ∧
    ∀ c, read (settingsTree vastText) [] [] (Path.ofText "") ≠ .ok c := by
  refine ⟨leadsTo_settingsFile vastText, ⟨vastText, rfl, eq_of_readsVast (by decide +kernel)⟩,
    fun c hc => ?_⟩
  have hnone : (read (settingsTree vastText) [] [] (Path.ofText "")).toOption = none := by
    decide +kernel
  simp [hc, Except.toOption] at hnone

end SchemaDiagram.Config
