import SchemaDiagram.FileTree.Resolve
import SchemaDiagram.Proofs.Json.Sorting

namespace SchemaDiagram.FileTree

def IsName (name : String) : Prop :=
  '/' ∉ name.toList

instance (name : String) : Decidable (IsName name) :=
  inferInstanceAs (Decidable (_ ∉ _))

inductive Proper : FileTree → Prop
  | file (content : Bytes) : Proper (.file content)
  | link (target : String) : Proper (.link target)
  | directory {entries : List (String × FileTree)} (ordered : entries.Pairwise fun e f => e.1 < f.1)
      (names : ∀ e ∈ entries, IsName e.1) (inside : ∀ e ∈ entries, Proper e.2) :
      Proper (.directory entries)

theorem nodup_of_ordered {entries : List (String × FileTree)}
    (h : entries.Pairwise fun e f => e.1 < f.1) : (entries.map Prod.fst).Nodup :=
  List.pairwise_map.2 (h.imp fun hlt => ne_of_lt hlt)

theorem Proper.ordered {entries : List (String × FileTree)} (h : Proper (.directory entries)) :
    entries.Pairwise fun e f => e.1 < f.1 := by
  cases h with
  | directory ordered _ _ => exact ordered

theorem Proper.lookup_eq_some_iff {entries : List (String × FileTree)}
    (h : Proper (.directory entries)) {name : String} {u : FileTree} :
    entries.lookup name = some u ↔ (name, u) ∈ entries :=
  Json.lookup_eq_some_iff (nodup_of_ordered h.ordered)

theorem Proper.child {t u : FileTree} (h : t.Proper) {name : String}
    (hchild : t.child? name = some u) : IsName name ∧ u.Proper := by
  cases t with
  | directory entries =>
      have hmem := h.lookup_eq_some_iff.1 hchild
      cases h with
      | directory _ names inside => exact ⟨names _ hmem, inside _ hmem⟩
  | file content => exact absurd hchild (by simp [child?])
  | link target => exact absurd hchild (by simp [child?])

theorem Proper.find {t u : FileTree} (h : t.Proper) {p : Place} (hfind : t.find? p = some u) :
    (∀ name ∈ p, IsName name) ∧ u.Proper := by
  induction p generalizing t with
  | nil =>
      obtain rfl := Option.some.inj hfind
      exact ⟨fun name hname => absurd hname List.not_mem_nil, h⟩
  | cons name names ih =>
      obtain ⟨v, hchild, hrest⟩ := Option.bind_eq_some_iff.1 hfind
      obtain ⟨hname, hv⟩ := h.child hchild
      obtain ⟨hnames, hu⟩ := ih hv hrest
      exact ⟨List.forall_mem_cons.2 ⟨hname, hnames⟩, hu⟩

theorem locate_eq_ok_iff {t u : FileTree} {standing : Place} {p : Path} :
    t.locate standing p = .ok u ↔
      ∃ place, t.follow .find standing p = .ok place ∧ t.find? place = some u := by
  rw [locate, bind_eq_ok_iff]
  refine exists_congr fun place => and_congr_right fun _ => ?_
  cases t.find? place with
  | none => simp [throw, throwThe, MonadExceptOf.throw]
  | some v => simp [pure, Except.pure]

theorem locate?_eq_some_iff {t u : FileTree} {standing : Place} {p : Path} :
    t.locate? standing p = .ok (some u) ↔ t.locate standing p = .ok u := by
  rw [FileTree.locate?]
  split
  · next v hlocate => simp [hlocate]
  · next refusal hlocate => split <;> simp [hlocate]

theorem Proper.locate? {t u : FileTree} (ht : t.Proper) {standing : Place} {p : Path}
    (h : t.locate? standing p = .ok (some u)) : u.Proper := by
  obtain ⟨place, -, hfind⟩ := locate_eq_ok_iff.1 (locate?_eq_some_iff.1 h)
  exact (ht.find hfind).2

theorem proper_empty : Proper empty :=
  .directory .nil (fun _ h => absurd h List.not_mem_nil) fun _ h => absurd h List.not_mem_nil

theorem mem_insertEntry {name : String} {t : FileTree} {entries : List (String × FileTree)}
    {e : String × FileTree} (h : e ∈ insertEntry name t entries) : e = (name, t) ∨ e ∈ entries := by
  induction entries with
  | nil => exact .inl (List.mem_singleton.1 h)
  | cons first rest ih =>
      rw [insertEntry] at h
      split at h
      · rcases List.mem_cons.1 h with heq | hmem
        · exact .inl heq
        · exact .inr (List.mem_cons_of_mem _ hmem)
      · split at h
        · exact List.mem_cons.1 h
        · rcases List.mem_cons.1 h with rfl | hmem
          · exact .inr (by simp)
          · exact (ih hmem).imp_right (List.mem_cons_of_mem _)

theorem ordered_insertEntry {entries : List (String × FileTree)}
    (h : entries.Pairwise fun e f => e.1 < f.1) (name : String) (t : FileTree) :
    (insertEntry name t entries).Pairwise fun e f => e.1 < f.1 := by
  induction entries with
  | nil => exact List.pairwise_singleton _ _
  | cons first rest ih =>
      obtain ⟨hfirst, hrest⟩ := List.pairwise_cons.1 h
      rw [insertEntry]
      split
      · next hname =>
          subst hname
          exact List.pairwise_cons.2 ⟨hfirst, hrest⟩
      · next hne =>
          split
          · next hlt =>
              refine List.pairwise_cons.2 ⟨fun e he => ?_, h⟩
              rcases List.mem_cons.1 he with rfl | he
              · exact hlt
              · exact lt_trans hlt (hfirst e he)
          · next hnlt =>
              refine List.pairwise_cons.2 ⟨fun e he => ?_, ih hrest⟩
              rcases mem_insertEntry he with rfl | he
              · exact lt_of_le_of_ne (not_lt.1 hnlt) fun heq => hne heq.symm
              · exact hfirst e he

theorem proper_insertEntry {entries : List (String × FileTree)} (h : Proper (.directory entries))
    {name : String} (hname : IsName name) {t : FileTree} (ht : t.Proper) :
    Proper (.directory (insertEntry name t entries)) := by
  cases h with
  | directory ordered names inside =>
      refine .directory (ordered_insertEntry ordered name t) ?_ ?_
      · intro e he
        rcases mem_insertEntry he with rfl | he
        · exact hname
        · exact names e he
      · intro e he
        rcases mem_insertEntry he with rfl | he
        · exact ht
        · exact inside e he

theorem Proper.insert {t u : FileTree} (ht : t.Proper) (hu : u.Proper) {p : Place}
    (hp : ∀ name ∈ p, IsName name) : (FileTree.insert t p u).Proper := by
  induction p generalizing u with
  | nil => exact ht
  | cons name names ih =>
      obtain ⟨hname, hnames⟩ := List.forall_mem_cons.1 hp
      have halone : Proper (.directory [(name, FileTree.insert t names empty)]) :=
        proper_insertEntry proper_empty hname (ih proper_empty hnames)
      cases u with
      | file content => exact halone
      | link target => exact halone
      | directory entries =>
          refine proper_insertEntry hu hname (ih ?_ hnames)
          cases hlookup : entries.lookup name with
          | none => exact proper_empty
          | some v => exact (hu.child hlookup).2

end SchemaDiagram.FileTree
