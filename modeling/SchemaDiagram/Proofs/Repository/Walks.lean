import SchemaDiagram.Proofs.FileTree.Proper
import SchemaDiagram.Proofs.FileTree.Writing
import SchemaDiagram.Repository.Local

/-!
The walk behind a listing: the directories that are visited, and what each of them contributes.
-/

namespace SchemaDiagram.LocalRepository

structure Visit where
  place : Place
  directories : List String
  files : List String
  deriving DecidableEq, Repr

def Visit.listed (v : Visit) : List (EntryKind × Place) :=
  (v.directories.map fun name => (.directory, v.place ++ [name])) ++
    v.files.map fun name => (.file, v.place ++ [name])

def visit (k : Keeping) (p : Place) (entries : List (String × FileTree)) : Visit :=
  { place := p
    directories := (entries.filter fun e => k.isListedDirectory (p ++ [e.1]) e.2).map Prod.fst
    files := (entries.filter fun e => k.isListedFile (p ++ [e.1]) e.2).map Prod.fst }

def visits (k : Keeping) (p : Place) : FileTree → List Visit
  | .directory entries => visit k p entries :: visitsInside p entries
  | _ => []
where
  visitsInside (p : Place) : List (String × FileTree) → List Visit
    | [] => []
    | (name, t) :: rest =>
        (if k.enters (p ++ [name]) then visits k (p ++ [name]) t else []) ++ visitsInside p rest

def listedIn (vs : List Visit) : List TreeEntry :=
  (vs.flatMap Visit.listed).map fun l => entry l.1 l.2

section

variable {k : Keeping} {p : Place}

def visitsOf (k : Keeping) (p : Place) (e : String × FileTree) : List Visit :=
  if k.enters (p ++ [e.1]) then visits k (p ++ [e.1]) e.2 else []

theorem visits_directory (entries : List (String × FileTree)) :
    visits k p (.directory entries) = visit k p entries :: entries.flatMap (visitsOf k p) := by
  have hinside : visits.visitsInside k p entries = entries.flatMap (visitsOf k p) := by
    induction entries with
    | nil => rw [visits.visitsInside, List.flatMap_nil]
    | cons e rest ih => rw [visits.visitsInside, ih, List.flatMap_cons, visitsOf]
  rw [visits, hinside]

theorem entriesInside_eq (entries : List (String × FileTree)) :
    entriesBelow.entriesInside k p entries = entries.flatMap fun e =>
      if k.enters (p ++ [e.1]) then entriesBelow k (p ++ [e.1]) e.2 else [] := by
  induction entries with
  | nil => rw [entriesBelow.entriesInside, List.flatMap_nil]
  | cons e rest ih => rw [entriesBelow.entriesInside, ih, List.flatMap_cons]

theorem listedIn_visit (entries : List (String × FileTree)) :
    listedIn [visit k p entries] =
      ((entries.filter fun e => k.isListedDirectory (p ++ [e.1]) e.2).map fun e =>
        entry .directory (p ++ [e.1])) ++
      (entries.filter fun e => k.isListedFile (p ++ [e.1]) e.2).map fun e =>
        entry .file (p ++ [e.1]) := by
  simp [listedIn, Visit.listed, visit, Function.comp_def]

theorem listedIn_append (vs ws : List Visit) : listedIn (vs ++ ws) = listedIn vs ++ listedIn ws := by
  simp [listedIn]

theorem entriesBelow_eq {t : FileTree} (h : t.Proper) (p : Place) :
    entriesBelow k p t = listedIn (visits k p t) := by
  induction h generalizing p with
  | file content => rfl
  | link target => rfl
  | @directory entries ordered names inside ih =>
      have hinside : ∀ rest : List (String × FileTree), (∀ e ∈ rest, e ∈ entries) →
          (rest.flatMap fun e =>
            if k.enters (p ++ [e.1]) then entriesBelow k (p ++ [e.1]) e.2 else []) =
            listedIn (rest.flatMap (visitsOf k p)) := by
        intro rest hrest
        induction rest with
        | nil => rfl
        | cons e rest ihrest =>
            obtain ⟨he, hrest⟩ := List.forall_mem_cons.1 hrest
            rw [List.flatMap_cons, List.flatMap_cons, listedIn_append, ihrest hrest, visitsOf]
            split
            · rw [ih e he]
            · rfl
      rw [entriesBelow, entriesInside_eq, hinside entries fun _ he => he, visits_directory,
        ← List.singleton_append, listedIn_append, listedIn_visit]

theorem goesInside_eq (depth : Nat) (entries : List (String × FileTree)) :
    goesBeyond.goesInside k depth p entries = entries.any fun e =>
      k.enters (p ++ [e.1]) && goesBeyond k depth (p ++ [e.1]) e.2 := by
  induction entries with
  | nil => rw [goesBeyond.goesInside, List.any_nil]
  | cons e rest ih => rw [goesBeyond.goesInside, ih, List.any_cons]

theorem directories_visit_ne_nil_iff {entries : List (String × FileTree)} :
    (visit k p entries).directories ≠ [] ↔
      (entries.any fun e => k.isListedDirectory (p ++ [e.1]) e.2) = true := by
  rw [visit, Ne, List.map_eq_nil_iff, List.filter_eq_nil_iff, List.any_eq_true]
  simp only [not_forall, exists_prop, not_not]

theorem goesBeyond_iff {t : FileTree} (h : t.Proper) {depth : Nat} :
    goesBeyond k depth p t = true ↔
      ∃ v ∈ visits k p t, depth ≤ v.place.length ∧ v.directories ≠ [] := by
  induction h generalizing p with
  | file content => simp [goesBeyond, visits]
  | link target => simp [goesBeyond, visits]
  | @directory entries ordered names inside ih =>
      have hinside : (∃ v ∈ entries.flatMap (visitsOf k p),
            depth ≤ v.place.length ∧ v.directories ≠ []) ↔
          goesBeyond.goesInside k depth p entries = true := by
        simp only [goesInside_eq, List.any_eq_true, Bool.and_eq_true, List.mem_flatMap]
        constructor
        · rintro ⟨v, ⟨e, he, hv⟩, hdeep⟩
          rw [visitsOf] at hv
          split at hv
          · next hopen => exact ⟨e, he, hopen, (ih e he).2 ⟨v, hv, hdeep⟩⟩
          · exact absurd hv List.not_mem_nil
        · rintro ⟨e, he, hopen, hbeyond⟩
          obtain ⟨v, hv, hdeep⟩ := (ih e he).1 hbeyond
          exact ⟨v, ⟨e, he, by rwa [visitsOf, if_pos hopen]⟩, hdeep⟩
      rw [goesBeyond, visits_directory, List.exists_mem_cons_iff, Bool.or_eq_true, ← hinside,
        Bool.and_eq_true, decide_eq_true_eq, directories_visit_ne_nil_iff]
      rfl

def Open (k : Keeping) (p names : Place) : Prop :=
  ∀ q, q ≠ [] → q <+: names → k.enters (p ++ q) = true

theorem open_nil (k : Keeping) (p : Place) : Open k p [] :=
  fun _ hne hprefix => absurd (List.prefix_nil.1 hprefix) hne

theorem open_cons {name : String} {names : Place} :
    Open k p (name :: names) ↔ k.enters (p ++ [name]) = true ∧ Open k (p ++ [name]) names := by
  constructor
  · intro h
    refine ⟨h [name] (by simp) ⟨names, rfl⟩, fun q _ hprefix => ?_⟩
    have hq := h (name :: q) (by simp) (List.cons_prefix_cons.2 ⟨rfl, hprefix⟩)
    rwa [List.append_assoc, List.singleton_append]
  · rintro ⟨hname, hnames⟩ q hne hprefix
    cases q with
    | nil => exact absurd rfl hne
    | cons first q =>
        obtain ⟨rfl, hrest⟩ := List.cons_prefix_cons.1 hprefix
        cases q with
        | nil => exact hname
        | cons second q =>
            have hq := hnames (second :: q) (by simp) hrest
            rwa [List.append_assoc, List.singleton_append] at hq

theorem isDirectory_of_find? {t : FileTree} {q : Place} {entries : List (String × FileTree)}
    (h : t.find? q = some (.directory entries)) : t.isDirectory = true := by
  cases q with
  | nil =>
      obtain rfl := Option.some.inj h
      rfl
  | cons name names =>
      obtain ⟨u, hchild, -⟩ := Option.bind_eq_some_iff.1 h
      cases t with
      | directory top => rfl
      | file content => exact absurd hchild (by simp [FileTree.child?])
      | link target => exact absurd hchild (by simp [FileTree.child?])

theorem mem_visits_iff {t : FileTree} (h : t.Proper) {v : Visit} :
    v ∈ visits k p t ↔ ∃ names entries, t.find? names = some (.directory entries) ∧
      Open k p names ∧ v = visit k (p ++ names) entries := by
  induction h generalizing p with
  | file content =>
      refine iff_of_false List.not_mem_nil ?_
      rintro ⟨names, entries, hfind, -⟩
      exact Bool.false_ne_true (isDirectory_of_find? hfind)
  | link target =>
      refine iff_of_false List.not_mem_nil ?_
      rintro ⟨names, entries, hfind, -⟩
      exact Bool.false_ne_true (isDirectory_of_find? hfind)
  | @directory entries ordered names inside ih =>
      have hproper : FileTree.Proper (.directory entries) := .directory ordered names inside
      rw [visits_directory, List.mem_cons, List.mem_flatMap]
      constructor
      · rintro (rfl | ⟨⟨name, u⟩, he, hv⟩)
        · exact ⟨[], entries, rfl, open_nil k p, by rw [List.append_nil]⟩
        · rw [visitsOf] at hv
          split at hv
          · next hname =>
              obtain ⟨rest, found, hfind, hopen, rfl⟩ := (ih _ he).1 hv
              refine ⟨name :: rest, found, ?_, open_cons.2 ⟨hname, hopen⟩, by simp⟩
              rw [FileTree.find?, FileTree.child?, hproper.lookup_eq_some_iff.2 he, Option.bind_some,
                hfind]
          · exact absurd hv List.not_mem_nil
      · rintro ⟨way, found, hfind, hopen, rfl⟩
        cases way with
        | nil =>
            obtain rfl := FileTree.directory.inj (Option.some.inj hfind)
            exact .inl (by rw [List.append_nil])
        | cons name rest =>
            obtain ⟨u, hchild, hrest⟩ := Option.bind_eq_some_iff.1 hfind
            obtain ⟨hname, hnames⟩ := open_cons.1 hopen
            have he : (name, u) ∈ entries := hproper.lookup_eq_some_iff.1 hchild
            refine .inr ⟨(name, u), he, ?_⟩
            rw [visitsOf, if_pos hname]
            exact (ih _ he).2 ⟨rest, found, hrest, hnames, by simp⟩

theorem prefix_place_of_mem_visits {t : FileTree} (h : t.Proper) {v : Visit}
    (hv : v ∈ visits k p t) : p <+: v.place := by
  obtain ⟨names, entries, -, -, rfl⟩ := (mem_visits_iff h).1 hv
  exact List.prefix_append p names

theorem name_eq_of_within {name other : String} {q s : Place} (hq : p ++ [name] <+: q)
    (hs : p ++ [other] <+: s) (h : s <+: q) : name = other := by
  obtain ⟨names, rfl⟩ := hq
  obtain ⟨others, rfl⟩ := hs
  rw [List.append_assoc, List.append_assoc, List.prefix_append_right_inj, List.singleton_append,
    List.singleton_append, List.cons_prefix_cons] at h
  exact h.1.symm

theorem visits_outward {t : FileTree} (h : t.Proper) (p : Place) :
    (visits k p t).Pairwise fun v w => ¬ w.place <+: v.place := by
  induction h generalizing p with
  | file content => exact .nil
  | link target => exact .nil
  | @directory entries ordered names inside ih =>
      have hplace : ∀ e ∈ entries, ∀ v ∈ visitsOf k p e, p ++ [e.1] <+: v.place := by
        intro e he v hv
        rw [visitsOf] at hv
        split at hv
        · exact prefix_place_of_mem_visits (inside e he) hv
        · exact absurd hv List.not_mem_nil
      rw [visits_directory, List.pairwise_cons, List.pairwise_flatMap]
      refine ⟨?_, ?_, ?_⟩
      · intro w hw hprefix
        obtain ⟨e, he, hw⟩ := List.mem_flatMap.1 hw
        have hlength := ((hplace e he w hw).trans hprefix).length_le
        simp [visit] at hlength
      · intro e he
        rw [visitsOf]
        split
        · exact ih e he _
        · exact .nil
      · refine ordered.imp_of_mem fun {e f} he hf hlt v hv w hw hprefix => ?_
        have hname := name_eq_of_within (hplace e he v hv) (hplace f hf w hw) hprefix
        exact ne_of_lt hlt hname

end

end SchemaDiagram.LocalRepository
