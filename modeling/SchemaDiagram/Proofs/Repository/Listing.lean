import SchemaDiagram.Proofs.Ignore.Rules
import SchemaDiagram.Proofs.Repository.Walks

/-!
What a listing of a directory holds, and in which order.
-/

namespace SchemaDiagram

namespace LocalRepository

def Ignores (r : LocalRepository) (p : Place) (isDirectory : Bool) : Prop :=
  r.ignoreRules.LeavesOut (relativeText p).toList isDirectory

def LeadsToDirectory (r : LocalRepository) (p : Place) (u : FileTree) : Prop :=
  u.isDirectory = true ∨
    ∃ target v, u = .link target ∧ r.tree.locate [] (r.root.append ⟨.none, p⟩) = .ok v ∧
      v.isDirectory = true

def Keeps (r : LocalRepository) (p : Place) : Prop :=
  p.getLast?.getD "" ∉ skippedNames ∧ ¬ r.Ignores p true

def Enters (r : LocalRepository) (p : Place) : Prop :=
  r.Keeps p ∧ FileTree.isLongPath (r.root.append ⟨.none, p⟩) = false

/-- Whether a place below the root is listed. Only directories lead to it, no links, and all of them
are entered. -/
def Lists (r : LocalRepository) (t : FileTree) (kind : EntryKind) (p : Place) : Prop :=
  p ≠ [] ∧ (∀ q, q ≠ [] → q <+: p → q ≠ p → r.Enters q) ∧
    ∃ u, t.find? p = some u ∧
      match kind with
      | .directory => r.LeadsToDirectory p u ∧ r.Keeps p
      | .file => ¬ r.LeadsToDirectory p u ∧ ¬ r.Ignores p false
      | .other => False

def Visits (r : LocalRepository) (t : FileTree) (p : Place) : Prop :=
  (∃ entries, t.find? p = some (.directory entries)) ∧ ∀ q, q ≠ [] → q <+: p → r.Enters q

/-- Whether the walk comes to a directory so deep that it cannot go on to another one that is listed
for it. -/
def GoesTooDeep [Platform] (r : LocalRepository) (t : FileTree) : Prop :=
  ∃ d name, r.Visits t d ∧ Platform.walkDepth ≤ d.length ∧ r.Lists t .directory (d ++ [name])

section

variable {r : LocalRepository} {t : FileTree} {p : Place}

theorem countsAsDirectory_iff {u : FileTree} :
    countsAsDirectory r.tree (r.root.append ⟨.none, p⟩) u = true ↔ r.LeadsToDirectory p u := by
  cases u with
  | directory entries => exact iff_of_true rfl (.inl rfl)
  | file content => simp [countsAsDirectory, LeadsToDirectory, FileTree.isDirectory]
  | link target =>
      rw [countsAsDirectory, LeadsToDirectory]
      cases r.tree.locate [] (r.root.append ⟨.none, p⟩) <;> simp [FileTree.isDirectory]

theorem enters_iff : r.keeping.enters p = true ↔ r.Enters p := by
  rw [keeping, Enters, Keeps, Ignores, ← IgnoreRules.ignores_iff]
  simp

theorem isListedDirectory_iff {u : FileTree} :
    r.keeping.isListedDirectory p u = true ↔ r.LeadsToDirectory p u ∧ r.Keeps p := by
  rw [← countsAsDirectory_iff, keeping, Keeps, Ignores, ← IgnoreRules.ignores_iff]
  simp

theorem isListedFile_iff {u : FileTree} :
    r.keeping.isListedFile p u = true ↔ ¬ r.LeadsToDirectory p u ∧ ¬ r.Ignores p false := by
  rw [← countsAsDirectory_iff, Ignores, ← IgnoreRules.ignores_iff, Bool.not_eq_true,
    Bool.not_eq_true, ← Bool.not_eq_true', ← Bool.not_eq_true', ← Bool.and_eq_true]
  rfl

theorem open_iff : Open r.keeping [] p ↔ ∀ q, q ≠ [] → q <+: p → r.Enters q := by
  simp only [Open, List.nil_append, enters_iff]

theorem mem_places_iff (h : t.Proper) {d : Place} :
    d ∈ (visits r.keeping [] t).map Visit.place ↔ r.Visits t d := by
  rw [List.mem_map]
  constructor
  · rintro ⟨v, hv, rfl⟩
    obtain ⟨names, entries, hfind, hopen, rfl⟩ := (mem_visits_iff h).1 hv
    exact ⟨⟨entries, hfind⟩, open_iff.1 hopen⟩
  · rintro ⟨⟨entries, hfind⟩, hopen⟩
    exact ⟨visit r.keeping d entries, (mem_visits_iff h).2 ⟨d, entries, hfind, open_iff.2 hopen, rfl⟩,
      rfl⟩

theorem mem_names_iff {d : Place} {entries : List (String × FileTree)} (f : Place → FileTree → Bool) :
    (∃ name ∈ (entries.filter fun e => f (d ++ [e.1]) e.2).map Prod.fst, d ++ [name] = p) ↔
      ∃ name u, (name, u) ∈ entries ∧ p = d ++ [name] ∧ f p u = true := by
  constructor
  · rintro ⟨name, hname, rfl⟩
    obtain ⟨⟨_, u⟩, he, rfl⟩ := List.mem_map.1 hname
    obtain ⟨hmem, hkept⟩ := List.mem_filter.1 he
    exact ⟨_, u, hmem, rfl, hkept⟩
  · rintro ⟨name, u, hmem, rfl, hkept⟩
    exact ⟨name, List.mem_map.2 ⟨(name, u), List.mem_filter.2 ⟨hmem, hkept⟩, rfl⟩, rfl⟩

theorem mem_listed_visit {k : Keeping} {d : Place} {entries : List (String × FileTree)}
    {kind : EntryKind} :
    (kind, p) ∈ (visit k d entries).listed ↔ ∃ name u, (name, u) ∈ entries ∧ p = d ++ [name] ∧
      match kind with
      | .directory => k.isListedDirectory p u = true
      | .file => k.isListedFile p u = true
      | .other => False := by
  rw [Visit.listed, List.mem_append, List.mem_map, List.mem_map]
  simp only [Prod.mk.injEq]
  cases kind with
  | directory =>
      simp only [true_and, reduceCtorEq, false_and, and_false, exists_false, or_false]
      exact mem_names_iff k.isListedDirectory
  | file =>
      simp only [true_and, reduceCtorEq, false_and, and_false, exists_false, false_or]
      exact mem_names_iff k.isListedFile
  | other => simp

theorem forall_prefix_concat {d : Place} {name : String} {P : Place → Prop} :
    (∀ q, q ≠ [] → q <+: d ++ [name] → q ≠ d ++ [name] → P q) ↔ ∀ q, q ≠ [] → q <+: d → P q := by
  constructor
  · intro h q hne hprefix
    refine h q hne (List.prefix_concat_iff.2 (.inr hprefix)) fun heq => ?_
    have hlength := hprefix.length_le
    simp [heq] at hlength
  · intro h q hne hprefix hproper
    exact h q hne ((List.prefix_concat_iff.1 hprefix).resolve_left hproper)

theorem entries_of_find? (h : t.Proper) {d : Place} {name : String} {u : FileTree}
    (hfind : t.find? (d ++ [name]) = some u) :
    ∃ entries, t.find? d = some (.directory entries) ∧ (name, u) ∈ entries := by
  rw [FileTree.find?_append] at hfind
  obtain ⟨v, hparent, hlast⟩ := Option.bind_eq_some_iff.1 hfind
  obtain ⟨w, hchild, hw⟩ := Option.bind_eq_some_iff.1 hlast
  obtain rfl := Option.some.inj hw
  cases v with
  | directory entries => exact ⟨entries, hparent, (h.find hparent).2.lookup_eq_some_iff.1 hchild⟩
  | file content => exact absurd hchild (by simp [FileTree.child?])
  | link target => exact absurd hchild (by simp [FileTree.child?])

theorem mem_listed_iff (h : t.Proper) {kind : EntryKind} :
    (kind, p) ∈ (visits r.keeping [] t).flatMap Visit.listed ↔ r.Lists t kind p := by
  rw [List.mem_flatMap]
  constructor
  · rintro ⟨v, hv, hlisted⟩
    obtain ⟨d, entries, hfind, hopen, rfl⟩ := (mem_visits_iff h).1 hv
    obtain ⟨name, u, hmem, rfl, hkind⟩ := mem_listed_visit.1 hlisted
    have hchild := (h.find hfind).2.lookup_eq_some_iff.2 hmem
    refine ⟨by simp, forall_prefix_concat.2 (open_iff.1 hopen), u, ?_, ?_⟩
    · rw [List.nil_append, FileTree.find?_concat hfind, hchild]
    · cases kind with
      | directory => exact isListedDirectory_iff.1 hkind
      | file => exact isListedFile_iff.1 hkind
      | other => exact hkind
  · rintro ⟨hne, hentered, u, hfind, hkind⟩
    obtain ⟨d, name, rfl⟩ := (List.eq_nil_or_concat' p).resolve_left hne
    obtain ⟨entries, hdirectory, hmem⟩ := entries_of_find? h hfind
    refine ⟨visit r.keeping d entries, (mem_visits_iff h).2 ⟨d, entries, hdirectory,
      open_iff.2 (forall_prefix_concat.1 hentered), rfl⟩, ?_⟩
    refine mem_listed_visit.2 ⟨name, u, hmem, rfl, ?_⟩
    cases kind with
    | directory => exact isListedDirectory_iff.2 hkind
    | file => exact isListedFile_iff.2 hkind
    | other => exact hkind

theorem directories_sorted {k : Keeping} {d : Place} {entries : List (String × FileTree)}
    (h : entries.Pairwise fun e f => e.1 < f.1) :
    (visit k d entries).directories.Pairwise (· < ·) :=
  List.pairwise_map.2 (h.filter _)

theorem files_sorted {k : Keeping} {d : Place} {entries : List (String × FileTree)}
    (h : entries.Pairwise fun e f => e.1 < f.1) : (visit k d entries).files.Pairwise (· < ·) :=
  List.pairwise_map.2 (h.filter _)

theorem directory_ne_file {d : Place} {entries : List (String × FileTree)}
    (h : FileTree.Proper (.directory entries)) {name other : String}
    (hname : name ∈ (visit r.keeping d entries).directories)
    (hother : other ∈ (visit r.keeping d entries).files) : name ≠ other := by
  rintro rfl
  obtain ⟨⟨_, u⟩, he, rfl⟩ := List.mem_map.1 hname
  obtain ⟨⟨_, v⟩, hf, rfl⟩ := List.mem_map.1 hother
  obtain ⟨hmem, hdirectory⟩ := List.mem_filter.1 he
  obtain ⟨hmem', hfile⟩ := List.mem_filter.1 hf
  have hlookup := h.lookup_eq_some_iff.2 hmem
  obtain rfl := Option.some.inj (hlookup.symm.trans (h.lookup_eq_some_iff.2 hmem'))
  exact (isListedFile_iff.1 hfile).1 (isListedDirectory_iff.1 hdirectory).1

theorem not_prefix_of_ne {d : Place} {name other : String} (h : name ≠ other) :
    ¬ d ++ [other] <+: d ++ [name] :=
  fun hprefix => h (name_eq_of_within List.prefix_rfl List.prefix_rfl hprefix)

theorem visit_outward {d : Place} {entries : List (String × FileTree)}
    (h : FileTree.Proper (.directory entries)) :
    (visit r.keeping d entries).listed.Pairwise fun l m => ¬ m.2 <+: l.2 := by
  have hordered := h.ordered
  refine List.pairwise_append.2 ⟨?_, ?_, ?_⟩
  · refine List.pairwise_map.2 ((directories_sorted hordered).imp fun hlt => ?_)
    exact not_prefix_of_ne (ne_of_lt hlt)
  · refine List.pairwise_map.2 ((files_sorted hordered).imp fun hlt => ?_)
    exact not_prefix_of_ne (ne_of_lt hlt)
  · intro l hl m hm
    obtain ⟨name, hname, rfl⟩ := List.mem_map.1 hl
    obtain ⟨other, hother, rfl⟩ := List.mem_map.1 hm
    exact not_prefix_of_ne (directory_ne_file h hname hother)

theorem place_of_mem_listed {v : Visit} {l : EntryKind × Place} (h : l ∈ v.listed) :
    ∃ name, l.2 = v.place ++ [name] := by
  rcases List.mem_append.1 h with hl | hl
  · obtain ⟨name, -, rfl⟩ := List.mem_map.1 hl
    exact ⟨name, rfl⟩
  · obtain ⟨name, -, rfl⟩ := List.mem_map.1 hl
    exact ⟨name, rfl⟩

theorem listed_outward (h : t.Proper) :
    ((visits r.keeping [] t).flatMap Visit.listed).Pairwise fun l m => ¬ m.2 <+: l.2 := by
  refine List.pairwise_flatMap.2 ⟨?_, ?_⟩
  · intro v hv
    obtain ⟨d, entries, hfind, -, rfl⟩ := (mem_visits_iff h).1 hv
    exact visit_outward (h.find hfind).2
  · refine (visits_outward h []).imp fun {v w} hvw l hl m hm hprefix => hvw ?_
    obtain ⟨name, hname⟩ := place_of_mem_listed hl
    obtain ⟨other, hother⟩ := place_of_mem_listed hm
    rw [hname, hother, List.prefix_concat_iff] at hprefix
    rcases hprefix with hsame | hinside
    · rw [(List.append_inj' hsame rfl).1]
    · exact (List.prefix_append _ _).trans hinside

theorem relativeText_inj {q : Place} (hp : p ≠ [] ∧ ∀ name ∈ p, FileTree.IsName name)
    (hq : q ≠ [] ∧ ∀ name ∈ q, FileTree.IsName name) (h : relativeText p = relativeText q) :
    p = q := by
  have hsplit : ∀ s : Place, s ≠ [] ∧ (∀ name ∈ s, FileTree.IsName name) →
      (relativeText s).toList.splitOn '/' = s.map String.toList := by
    rintro s ⟨hne, hnames⟩
    rw [relativeText, String.toList_intercalate]
    refine List.splitOn_intercalate '/' ?_ (by simpa using hne)
    intro cs hcs
    obtain ⟨name, hname, rfl⟩ := List.mem_map.1 hcs
    exact hnames name hname
  have hlists : p.map String.toList = q.map String.toList := by
    rw [← hsplit p hp, ← hsplit q hq, h]
  exact List.map_injective_iff.2 (fun _ _ => String.toList_inj.1) hlists

theorem place_eq_of_entry_eq {q : Place} {kind kind' : EntryKind}
    (hp : p ≠ [] ∧ ∀ name ∈ p, FileTree.IsName name)
    (hq : q ≠ [] ∧ ∀ name ∈ q, FileTree.IsName name) (h : entry kind p = entry kind' q) : p = q :=
  relativeText_inj hp hq (congrArg TreeEntry.path h)

theorem Lists.names (h : t.Proper) {kind : EntryKind} (hl : r.Lists t kind p) :
    p ≠ [] ∧ ∀ name ∈ p, FileTree.IsName name := by
  obtain ⟨hne, -, u, hfind, -⟩ := hl
  exact ⟨hne, (h.find hfind).1⟩

theorem paths_nodup (h : t.Proper) :
    ((listedIn (visits r.keeping [] t)).map TreeEntry.path).Nodup := by
  have hnames : ∀ l ∈ (visits r.keeping [] t).flatMap Visit.listed,
      l.2 ≠ [] ∧ ∀ name ∈ l.2, FileTree.IsName name :=
    fun _ hl => ((mem_listed_iff h).1 hl).names h
  rw [listedIn, List.map_map]
  refine List.pairwise_map.2 ((listed_outward h).imp_of_mem fun {l m} hl hm hapart hsame => hapart ?_)
  have hplaces : l.2 = m.2 := relativeText_inj (hnames l hl) (hnames m hm) hsame
  rw [hplaces]

theorem mem_directories_iff {v : Visit} {name : String} :
    name ∈ v.directories ↔ (EntryKind.directory, v.place ++ [name]) ∈ v.listed := by
  simp [Visit.listed]

theorem goesTooDeep_iff [Platform] (h : t.Proper) :
    goesBeyond r.keeping Platform.walkDepth [] t = true ↔ r.GoesTooDeep t := by
  rw [goesBeyond_iff h]
  constructor
  · rintro ⟨v, hv, hdeep, hne⟩
    obtain ⟨name, hname⟩ := List.exists_mem_of_ne_nil _ hne
    refine ⟨v.place, name, (mem_places_iff h).1 (List.mem_map_of_mem hv), hdeep, ?_⟩
    exact (mem_listed_iff h).1 (List.mem_flatMap.2 ⟨v, hv, mem_directories_iff.1 hname⟩)
  · rintro ⟨d, name, -, hdeep, hlists⟩
    obtain ⟨v, hv, hl⟩ := List.mem_flatMap.1 ((mem_listed_iff h).2 hlists)
    obtain ⟨other, hother⟩ := place_of_mem_listed hl
    obtain ⟨rfl, hnames⟩ := List.append_inj' hother rfl
    exact ⟨v, hv, hdeep, List.ne_nil_of_mem (mem_directories_iff.2 hl)⟩

theorem listing_of_tooDeep [Platform] (h : t.Proper)
    (hroot : r.tree.locate? [] r.root = .ok (some t)) (hdirectory : t.isDirectory = true)
    (hdeep : r.GoesTooDeep t) :
    r.listing = .error (.tooDeep "maximum recursion depth exceeded") := by
  have hbeyond := (goesTooDeep_iff h).2 hdeep
  simp only [listing, hroot, hdirectory, hbeyond, if_true]

theorem listing_of_shallow [Platform] (h : t.Proper)
    (hroot : r.tree.locate? [] r.root = .ok (some t)) (hdirectory : t.isDirectory = true)
    (hshallow : ¬ r.GoesTooDeep t) : r.listing = .ok (listedIn (visits r.keeping [] t)) := by
  have hends := mt (goesTooDeep_iff h).1 hshallow
  simp only [listing, hroot, hdirectory, if_true, if_neg hends, entriesBelow_eq h]

theorem mem_listedIn_iff (h : t.Proper) {e : TreeEntry} :
    e ∈ listedIn (visits r.keeping [] t) ↔ ∃ kind p, r.Lists t kind p ∧ e = entry kind p := by
  rw [listedIn, List.mem_map]
  constructor
  · rintro ⟨⟨kind, p⟩, hl, rfl⟩
    exact ⟨kind, p, (mem_listed_iff h).1 hl, rfl⟩
  · rintro ⟨kind, p, hl, rfl⟩
    exact ⟨(kind, p), (mem_listed_iff h).2 hl, rfl⟩

theorem listing_complete [Platform] (htree : r.tree.Proper)
    (hroot : r.tree.locate? [] r.root = .ok (some t)) (hdirectory : t.isDirectory = true) :
    ∃ vs : List Visit,
      (r.GoesTooDeep t → r.listing = .error (.tooDeep "maximum recursion depth exceeded")) ∧
      (¬ r.GoesTooDeep t → r.listing = .ok (listedIn vs)) ∧
      (∀ e, e ∈ listedIn vs ↔ ∃ kind p, r.Lists t kind p ∧ e = entry kind p) ∧
      ((listedIn vs).map TreeEntry.path).Nodup ∧
      ((vs.flatMap Visit.listed).Pairwise fun l m => ¬ m.2 <+: l.2) ∧
      (∀ d, d ∈ vs.map Visit.place ↔ r.Visits t d) ∧ (vs.map Visit.place).Nodup ∧
      ∀ v ∈ vs, v.directories.Pairwise (· < ·) ∧ v.files.Pairwise (· < ·) := by
  have h := htree.locate? hroot
  refine ⟨visits r.keeping [] t, listing_of_tooDeep h hroot hdirectory,
    listing_of_shallow h hroot hdirectory, fun _ => mem_listedIn_iff h, paths_nodup h,
    listed_outward h, fun d => mem_places_iff h, ?_, ?_⟩
  · refine List.pairwise_map.2 ((visits_outward h []).imp fun {v w} hvw hsame => hvw ?_)
    rw [hsame]
  · intro v hv
    obtain ⟨d, entries, hfind, -, rfl⟩ := (mem_visits_iff h).1 hv
    have hordered := (h.find hfind).2.ordered
    exact ⟨directories_sorted hordered, files_sorted hordered⟩

end

def shopTree : FileTree :=
  .insert (.file []) ["shop", "src", "order.js"] <|
  .insert (.link "/shop/src") ["shop", "models"] <|
  .insert (.file []) ["shop", "node_modules", "a.js"] <|
  .insert (.file []) ["shop", "build", "keep.js"] <|
  .insert (.file (Utf8.encode "build/\n!build/keep.js".toList)) ["shop", ".gitignore"] .empty

def shop : LocalRepository :=
  { tree := shopTree, root := .ofPlace ["shop"] }

def shopEntries : List TreeEntry :=
  [⟨"models", .directory⟩, ⟨"src", .directory⟩, ⟨".gitignore", .file⟩, ⟨"src/order.js", .file⟩]

theorem proper_shopTree : shopTree.Proper := by
  refine .insert (.file _) (.insert (.link _) (.insert (.file _) (.insert (.file _)
    (.insert (.file _) FileTree.proper_empty ?_) ?_) ?_) ?_) ?_
  all_goals decide

def shopRoot : FileTree :=
  (shopTree.find? ["shop"]).getD .empty

theorem shop_listing :
    shop.tree.Proper ∧ shop.tree.locate? [] shop.root = .ok (some shopRoot) ∧
    shopRoot.isDirectory = true ∧ shop.listing = .ok shopEntries ∧
    ∀ e, e ∈ shopEntries ↔ ∃ kind p, shop.Lists shopRoot kind p ∧ e = entry kind p := by
  have hroot : shop.tree.locate? [] shop.root = .ok (some shopRoot) := rfl
  have hdirectory : shopRoot.isDirectory = true := rfl
  have hlisting : shop.listing = .ok shopEntries := rfl
  obtain ⟨vs, hdeep, hends, hexact, -⟩ := listing_complete proper_shopTree hroot hdirectory
  have hvs : shop.listing = .ok (listedIn vs) :=
    hends fun h => by simp [hlisting] at hdeep; exact hdeep h
  have hentries : shopEntries = listedIn vs := Except.ok.inj (hlisting.symm.trans hvs)
  rw [hentries] at hlisting ⊢
  exact ⟨proper_shopTree, hroot, hdirectory, hlisting, hexact⟩

def longName : String :=
  String.ofList (List.replicate 250 'd')

def steepTree : Nat → FileTree
  | 0 => .directory [("a.js", .file [])]
  | n + 1 => .directory [(longName, steepTree n)]

def steep : LocalRepository :=
  { tree := steepTree 17, root := .ofPlace [] }

def steepFile : Place :=
  List.replicate 17 longName ++ ["a.js"]

theorem isName_replicate {c : Char} (hc : c ≠ '/') (n : ℕ) :
    FileTree.IsName (String.ofList (List.replicate n c)) := by
  rw [FileTree.IsName, String.toList_ofList, List.mem_replicate]
  exact fun hslash => hc hslash.2.symm

theorem proper_steepTree (n : ℕ) : (steepTree n).Proper := by
  induction n with
  | zero => exact .directory (by simp) (by decide) (by simpa using .file [])
  | succ n ih =>
      refine .directory (by simp) ?_ ?_
      · rw [List.forall_mem_singleton]
        exact isName_replicate (by decide) 250
      · rw [List.forall_mem_singleton]
        exact ih

theorem find?_steepTree (n : ℕ) (q : Place) :
    (steepTree n).find? (List.replicate n longName ++ q) = (steepTree 0).find? q := by
  induction n with
  | zero => rfl
  | succ n ih => simp [steepTree, List.replicate_succ, FileTree.find?, FileTree.child?, ih]

theorem find?_of_singleton {name first : String} {u v : FileTree} {q : Place}
    (h : (FileTree.directory [(name, u)]).find? (first :: q) = some v) : u.find? q = some v := by
  obtain ⟨w, hchild, hrest⟩ := Option.bind_eq_some_iff.1 h
  rw [FileTree.child?, List.lookup_cons] at hchild
  split at hchild
  · rwa [Option.some.inj hchild]
  · exact absurd hchild (by simp)

theorem length_le_of_find?_steepTree {n : ℕ} {q : Place} {u : FileTree}
    (h : (steepTree n).find? q = some u) : q.length ≤ n + 1 := by
  cases q with
  | nil => simp
  | cons first q =>
      rw [List.length_cons, Nat.add_le_add_iff_right]
      cases n with
      | zero =>
          have hfile := find?_of_singleton h
          cases q with
          | nil => exact Nat.le_refl 0
          | cons second q => simp [FileTree.find?, FileTree.child?] at hfile
      | succ n => exact length_le_of_find?_steepTree (find?_of_singleton h)

theorem steep_ignores_nothing (p : Place) (isDirectory : Bool) : ¬ steep.Ignores p isDirectory := by
  have hrules : steep.ignoreRules = ⟨[]⟩ := by decide +kernel
  rw [Ignores, hrules, ← IgnoreRules.ignores_iff, IgnoreRules.ignores_nil]
  exact Bool.false_ne_true

theorem steep_keeps {q : Place} (hne : q ≠ []) (hleads : q <+: steepFile) (hproper : q ≠ steepFile) :
    steep.Keeps q := by
  have hshort : q <+: List.replicate 17 longName :=
    (List.prefix_concat_iff.1 hleads).resolve_left hproper
  have hlast : q.getLast hne = longName :=
    List.eq_of_mem_replicate (hshort.subset (List.getLast_mem hne))
  have hkept : longName ∉ skippedNames := by decide +kernel
  refine ⟨?_, steep_ignores_nothing q true⟩
  rwa [List.getLast?_eq_getLast_of_ne_nil hne, hlast]

theorem steep_not_tooDeep : ¬ steep.GoesTooDeep steep.tree := by
  rintro ⟨d, name, ⟨⟨entries, hfind⟩, -⟩, hdeep, -⟩
  have hlength := length_le_of_find?_steepTree hfind
  have hlimit : Platform.walkDepth = 975 := rfl
  omega

theorem steep_file_unlisted :
    steep.tree.Proper ∧ steep.tree.locate? [] steep.root = .ok (some steep.tree) ∧
    (∀ q, q ≠ [] → q <+: steepFile → q ≠ steepFile → steep.Keeps q) ∧
    steep.tree.find? steepFile = some (.file []) ∧ ¬ steep.Ignores steepFile false ∧
    ∃ entries, steep.listing = .ok entries ∧ entry .file steepFile ∉ entries := by
  have hproper : steep.tree.Proper := proper_steepTree 17
  have hfound : steep.tree.find? steepFile = some (.file []) := by
    rw [steep, steepFile, find?_steepTree]
    rfl
  have hlong : FileTree.isLongPath (steep.root.append ⟨.none, List.replicate 17 longName⟩) = true := by
    decide +kernel
  refine ⟨hproper, rfl, fun _ => steep_keeps, hfound, steep_ignores_nothing steepFile false, _,
    listing_of_shallow hproper rfl rfl steep_not_tooDeep, fun hmem => ?_⟩
  obtain ⟨kind, p, hlists, hentry⟩ := (mem_listedIn_iff hproper).1 hmem
  have hplace : steepFile = p :=
    place_eq_of_entry_eq ⟨by simp [steepFile], (hproper.find hfound).1⟩ (hlists.names hproper) hentry
  have hentered := hlists.2.1 (List.replicate 17 longName) (by simp)
    (hplace ▸ List.prefix_append _ _) (by simp [← hplace, steepFile])
  exact Bool.false_ne_true (hentered.2.symm.trans hlong)

end LocalRepository

end SchemaDiagram
