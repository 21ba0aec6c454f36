import SchemaDiagram.Proofs.FileTree.Writing
import SchemaDiagram.Proofs.Store.Answers

/-!
A store on a file, from its opening through changes and writes. As long as nothing is unsaved, the
file holds what the store holds, so a store that is opened on it answers the same.
-/

namespace SchemaDiagram

namespace Operation

def Lawful : Operation → Prop
  | .upsert _ _ models => ∀ m ∈ models, m.toJson.Lawful
  | .delete _ => True

end Operation

namespace DiagramStore

/-- A store that was opened on a path and its changes and writes, while nothing else touches what
the path leads to. -/
inductive Session [Platform] (standing : Place) (path : Path) : DiagramStore → FileTree → Prop where
  | opened {s : DiagramStore} {tree : FileTree} :
      load tree standing path = .ok s → Session standing path s tree
  | changed {s : DiagramStore} {tree : FileTree} {op : Operation} :
      Session standing path s tree → op.Lawful → Session standing path (op.apply s) tree
  | persisted {s t : DiagramStore} {tree tree' : FileTree} :
      Session standing path s tree → s.persist tree standing = .ok (t, tree') →
        Session standing path t tree'
  | elsewhere {s : DiagramStore} {tree tree' : FileTree} :
      Session standing path s tree →
        tree'.contentAt standing path = tree.contentAt standing path →
          Session standing path s tree'

/-- A store without changes is what its file holds, perhaps in another order. -/
structure Kept [Platform] (standing : Place) (path : Path) (s : DiagramStore) (tree : FileTree) :
    Prop where
  named : s.path = some path
  entries : WellKept s.entries
  saved : s.unsaved = false → ∃ entries,
    load tree standing path = .ok { path := some path, entries } ∧
      (entries = s.entries ∨ entries = inOrder s.entries)

section

variable {standing : Place} {path : Path} {s t : DiagramStore} {tree tree' : FileTree}

theorem load_eq_ok [Platform] (h : load tree standing path = .ok s) :
    s = { path := some path, entries := s.entries } ∧ WellKept s.entries := by
  rw [load] at h
  split at h
  · simp at h
  · obtain rfl := Except.ok.inj h
    exact ⟨rfl, wellKept_nil⟩
  · obtain ⟨entries, hentries, rfl⟩ := map_eq_ok_iff.1 h
    exact ⟨rfl, wellKept_entriesOfBytes hentries⟩

theorem kept_load [Platform] (h : load tree standing path = .ok s) : Kept standing path s tree := by
  obtain ⟨hs, hkept⟩ := load_eq_ok h
  exact ⟨congrArg DiagramStore.path hs, hkept,
    fun _ => ⟨s.entries, h.trans (congrArg _ hs), .inl rfl⟩⟩

theorem wellKept_upsert (h : WellKept s.entries) (now : String) (p : Slot) {models : List Model}
    (hmodels : ∀ m ∈ models, m.toJson.Lawful) :
    WellKept (s.upsert now p.repository p.user models).2.entries := by
  have hlist : (Json.arr (models.map Model.toJson)).Lawful := by
    refine Json.lawful_arr.2 fun v hv => ?_
    obtain ⟨m, hm, rfl⟩ := List.mem_map.1 hv
    exact hmodels m hm
  refine wellKept_put h _ (Json.lawful_obj.2 ⟨?_, fun m hm => ?_⟩) rfl
  · simp [DiagramEntry.ofRecord]
  · simp only [DiagramEntry.ofRecord, List.mem_cons, List.not_mem_nil, or_false] at hm
    rcases hm with rfl | rfl | rfl | rfl | rfl
    · trivial
    · trivial
    · exact hlist
    · trivial
    · trivial

theorem Kept.apply [Platform] (h : Kept standing path s tree) {op : Operation} (hop : op.Lawful) :
    Kept standing path (op.apply s) tree := by
  cases op with
  | upsert now p models =>
      refine ⟨h.named, wellKept_upsert h.entries now p hop, fun hsaved => absurd hsaved ?_⟩
      simp [Operation.apply, upsert]
  | delete p =>
      rw [Operation.apply, delete]
      split
      · exact h
      · exact ⟨h.named, wellKept_erase h.entries _, fun hsaved => absurd hsaved (by simp)⟩

theorem persist_eq_ok [Platform] (hpath : s.path = some path)
    (h : s.persist tree standing = .ok (t, tree')) :
    s.unsaved = false ∧ t = s ∧ tree' = tree ∨
      t = { s with unsaved := false } ∧ ∃ text, s.fileText = .ok text ∧
        tree'.contentAt standing path = .ok (Utf8.encode text) := by
  rw [persist, hpath] at h
  dsimp only at h
  split at h
  · obtain ⟨made, -, h⟩ := bind_eq_ok_iff.1 h
    obtain ⟨text, htext, h⟩ := bind_eq_ok_iff.1 h
    obtain ⟨written, hwritten, h⟩ := bind_eq_ok_iff.1 h
    obtain ⟨rfl, rfl⟩ := Prod.mk.inj (Except.ok.inj h)
    exact .inr ⟨by rw [← hpath], text, mapError_eq_ok_iff.1 htext,
      FileTree.contentAt_writeContent (mapError_eq_ok_iff.1 hwritten)⟩
  · next hsaved =>
      obtain ⟨rfl, rfl⟩ := Prod.mk.inj (Except.ok.inj h)
      exact .inl ⟨by simpa using hsaved, rfl, rfl⟩

theorem unsaved_of_persist [Platform] (hpath : s.path = some path)
    (h : s.persist tree standing = .ok (t, tree')) : t.unsaved = false := by
  rcases persist_eq_ok hpath h with ⟨hsaved, rfl, -⟩ | ⟨rfl, -⟩
  · exact hsaved
  · rfl

theorem entries_of_persist [Platform] (h : s.persist tree standing = .ok (t, tree')) :
    t.entries = s.entries := by
  cases hpath : s.path with
  | none =>
      rw [persist_of_no_path hpath] at h
      obtain ⟨rfl, -⟩ := Prod.mk.inj (Except.ok.inj h)
      rfl
  | some path =>
      rcases persist_eq_ok hpath h with ⟨-, rfl, -⟩ | ⟨rfl, -⟩
      · rfl
      · rfl

theorem unsaved_of_persist_error [Platform] {f : Fault}
    (h : s.persist tree standing = .error (f, tree')) : s.unsaved = true := by
  cases hpath : s.path with
  | none => simp [persist_of_no_path hpath] at h
  | some path =>
      by_contra hsaved
      simp [DiagramStore.persist, hpath, hsaved] at h

theorem Kept.persist [Platform] (h : Kept standing path s tree)
    (hpersist : s.persist tree standing = .ok (t, tree')) : Kept standing path t tree' := by
  rcases persist_eq_ok h.named hpersist with ⟨-, rfl, rfl⟩ | ⟨rfl, text, htext, hcontent⟩
  · exact h
  · refine ⟨h.named, h.entries, fun _ => ⟨inOrder s.entries, ?_, .inr rfl⟩⟩
    rw [load, hcontent]
    dsimp only
    rw [entriesOfBytes_fileText h.entries htext]
    rfl

theorem Kept.elsewhere [Platform] (h : Kept standing path s tree)
    (hcontent : tree'.contentAt standing path = tree.contentAt standing path) :
    Kept standing path s tree' := by
  have hload : load tree' standing path = load tree standing path := by rw [load, load, hcontent]
  exact ⟨h.named, h.entries, by rw [hload]; exact h.saved⟩

theorem Session.kept [Platform] (h : Session standing path s tree) : Kept standing path s tree := by
  induction h with
  | opened hload => exact kept_load hload
  | changed _ hop ih => exact ih.apply hop
  | persisted _ hpersist ih => exact ih.persist hpersist
  | elsewhere _ hcontent ih => exact ih.elsewhere hcontent

theorem reopened_sameAnswers [Platform] (h : Session standing path s tree)
    (hpersist : s.persist tree standing = .ok (t, tree')) :
    ∃ reopened, load tree' standing path = .ok reopened ∧ SameAnswers t reopened := by
  have hkept : Kept standing path t tree' := h.kept.persist hpersist
  obtain ⟨entries, hload, horder⟩ := hkept.saved (unsaved_of_persist h.kept.named hpersist)
  refine ⟨_, hload, ?_⟩
  rcases horder with hsame | hsorted
  · exact sameAnswers_of_entries hsame
  · exact sameAnswers_inOrder hkept.entries hsorted

end

def shelf : Path :=
  ⟨.none, ["kept", "diagrams.json"]⟩

def shopUpload : Operation :=
  .upsert "2024-01-01T00:00:00Z" ⟨"shop", "alice"⟩
    [⟨"User", "user.js", [{ name := "tags", defaultValue := .obj [("b", .int 1), ("a", .null)] }]⟩]

theorem lawful_shopUpload : shopUpload.Lawful := by
  intro m hm
  obtain rfl := List.mem_singleton.1 hm
  simp [Model.toJson, Field.toJson, Field.optionalMember, Field.listJson, Json.Lawful,
    Json.Lawful.areLawful, Json.Lawful.haveLawful]

def shopStore : DiagramStore :=
  shopUpload.apply { path := some shelf }

theorem shop_reopened :
    Session [] shelf shopStore (.directory []) ∧
    ∃ t tree reopened, shopStore.persist (.directory []) [] = .ok (t, tree) ∧
      load tree [] shelf = .ok reopened ∧
      (reopened.find? "shop" "alice").map DiagramRecord.sorted =
        (t.find? "shop" "alice").map DiagramRecord.sorted := by
  have hsession : Session [] shelf shopStore (.directory []) :=
    .changed (.opened rfl) lawful_shopUpload
  refine ⟨hsession, ?_⟩
  have hwrites : (shopStore.persist (.directory []) []).isOk = true := by decide +kernel
  cases hpersist : shopStore.persist (.directory []) [] with
  | error f => simp [hpersist, Except.isOk, Except.toBool] at hwrites
  | ok written =>
      obtain ⟨t, tree⟩ := written
      obtain ⟨reopened, hload, hanswers⟩ := reopened_sameAnswers hsession hpersist
      refine ⟨t, tree, reopened, rfl, hload, hanswers.found "shop" "alice" fun e he => ?_⟩
      rw [entryAt?, entries_of_persist hpersist] at he
      obtain rfl := Option.some.inj he
      exact DiagramEntry.legible_ofRecord _

def foundAround [Platform] (tree : FileTree) (op : Operation) (p : Slot) :
    Except Fault (Option DiagramRecord × Option DiagramRecord) := do
  let s ← load tree [] shelf
  let (t, tree) ← ((op.apply s).persist tree []).mapError Prod.fst
  let reopened ← load tree [] shelf
  return (t.find? p.repository p.user, reopened.find? p.repository p.user)

theorem foundAround_eq_ok [Platform] {tree : FileTree} {op : Operation} {p : Slot}
    {found : Option DiagramRecord × Option DiagramRecord} (h : foundAround tree op p = .ok found) :
    ∃ s t tree' reopened, load tree [] shelf = .ok s ∧
      (op.apply s).persist tree [] = .ok (t, tree') ∧ load tree' [] shelf = .ok reopened ∧
      found = (t.find? p.repository p.user, reopened.find? p.repository p.user) := by
  obtain ⟨s, hload, h⟩ := bind_eq_ok_iff.1 h
  obtain ⟨⟨t, tree'⟩, hpersist, h⟩ := bind_eq_ok_iff.1 h
  obtain ⟨reopened, hreload, h⟩ := bind_eq_ok_iff.1 h
  exact ⟨s, t, tree', reopened, hload, mapError_eq_ok_iff.1 hpersist, hreload,
    (Except.ok.inj h).symm⟩

theorem exists_ok_of_toOption_map {ε α β : Type} {f : α → β} {x : Except ε α} {b : β}
    (h : (x.map f).toOption = some b) : ∃ a, x = .ok a ∧ f a = b := by
  cases x with
  | error e => simp [Except.map, Except.toOption] at h
  | ok a => exact ⟨a, rfl, Option.some.inj h⟩

def unnamedTree : FileTree :=
  let entry : Json := .obj [("models", .arr []), ("user", .str "u"),
    ("repository", .obj [("b", .int 1), ("a", .int 2)])]
  let content : Json := .obj [("version", .int 1), ("entries", .obj [("u::r", entry)])]
  .directory [("kept", .directory [("diagrams.json", .file (Utf8.encode content.pretty))])]

theorem unnamed_shown_in_order :
    ∃ s t tree reopened, Session [] shelf s unnamedTree ∧
      s.persist unnamedTree [] = .ok (t, tree) ∧ load tree [] shelf = .ok reopened ∧
      reopened.find? "r" "u" ≠ t.find? "r" "u" := by
  have htexts : ((foundAround unnamedTree shopUpload ⟨"r", "u"⟩).map fun found =>
      (found.1.map DiagramRecord.repository, found.2.map DiagramRecord.repository)).toOption =
        some (some "\x7b'b': 1, 'a': 2\x7d", some "\x7b'a': 2, 'b': 1\x7d") := by
    decide +kernel
  obtain ⟨found, hrun, hfound⟩ := exists_ok_of_toOption_map htexts
  obtain ⟨hbefore, hafter⟩ := Prod.mk.inj hfound
  obtain ⟨s, t, tree, reopened, hload, hpersist, hreload, rfl⟩ := foundAround_eq_ok hrun
  refine ⟨_, t, tree, reopened, .changed (.opened hload) lawful_shopUpload, hpersist, hreload,
    fun hsame => ?_⟩
  have hrepository := congrArg (Option.map DiagramRecord.repository) hsame
  rw [hbefore, hafter] at hrepository
  exact absurd hrepository (by decide)

end DiagramStore

end SchemaDiagram
