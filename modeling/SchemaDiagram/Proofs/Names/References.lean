import SchemaDiagram.Diagram
import SchemaDiagram.Proofs.Names.Runs
import SchemaDiagram.Proofs.Schema.Texts

/-!
References between models that were given names of their own: each name of before is still the name
of one model, so that no reference loses its target.
-/

namespace SchemaDiagram

namespace Extraction

def merged (perFile : List (List Model)) : List Model :=
  (merge .empty perFile.flatten).1

theorem mem_taken_claim (r : NameRegistry) (name path : String) :
    name ∈ (r.claim name path).2.taken := by
  rw [NameRegistry.taken_claim]
  cases hfree : r.contains name with
  | false =>
      rw [NameRegistry.claim_of_free path hfree]
      exact List.mem_cons_self
  | true =>
      have hmem : name ∈ r.taken := List.contains_iff_mem.1 hfree
      exact List.mem_cons_of_mem _ hmem

theorem taken_subset_merge (registry : NameRegistry) (ms : List Model) :
    registry.taken ⊆ (merge registry ms).2.taken := by
  rw [taken_merge]
  exact List.subset_append_right _ _

theorem name_mem_taken_merge {ms : List Model} {m : Model} (h : m ∈ ms)
    (registry : NameRegistry) : m.name ∈ (merge registry ms).2.taken := by
  induction ms generalizing registry with
  | nil => exact absurd h List.not_mem_nil
  | cons first ms ih =>
      rw [merge]
      rcases List.mem_cons.1 h with rfl | hlater
      · exact taken_subset_merge _ ms (mem_taken_claim registry m.name m.filePath)
      · exact ih hlater _

theorem taken_merge_empty (ms : List Model) :
    (merge .empty ms).2.taken = ((merge .empty ms).1.map Model.name).reverse := by
  rw [taken_merge, NameRegistry.empty, List.append_nil]

theorem nodup_names_merged (perFile : List (List Model)) :
    ((merged perFile).map Model.name).Nodup := by
  have htaken : (merge .empty perFile.flatten).2.taken.Nodup :=
    nodup_merge perFile.flatten List.nodup_nil
  rw [taken_merge_empty] at htaken
  exact List.nodup_reverse.1 htaken

theorem names_subset_merged (perFile : List (List Model)) :
    perFile.flatten.map Model.name ⊆ (merged perFile).map Model.name := by
  intro name hname
  obtain ⟨m, hm, rfl⟩ := List.mem_map.1 hname
  have htaken := name_mem_taken_merge hm .empty
  rw [taken_merge_empty] at htaken
  exact List.mem_reverse.1 htaken

end Extraction

def Field.Linkable (f : Field) : Prop :=
  match f.ref with
  | .arr (_ :: _) => False
  | .obj (_ :: _) => False
  | _ => True

namespace Diagram

def edge? (names : List String) (m : Model) (f : Field) : Option Edge :=
  match f.ref with
  | .str target => if target ≠ "" ∧ target ∈ names then some ⟨m.name, target, f.name⟩ else none
  | _ => none

def edgesTo (names : List String) (ms : List Model) : List Edge :=
  ms.flatMap fun m => m.fields.filterMap (edge? names m)

section

variable {names : List String} {m : Model} {f : Field} {e : Edge}

theorem edge?_eq_some_iff : edge? names m f = some e ↔
    f.ref = .str e.target ∧ e.target ≠ "" ∧ e.target ∈ names ∧ e.source = m.name ∧
      e.field = f.name := by
  obtain ⟨source, target, field⟩ := e
  rw [edge?]
  split
  · next s hs =>
      rw [hs, Option.ite_none_right_eq_some, Option.some.injEq, Edge.mk.injEq, Json.str.injEq]
      constructor
      · rintro ⟨⟨hne, hmem⟩, rfl, rfl, rfl⟩
        exact ⟨rfl, hne, hmem, rfl, rfl⟩
      · rintro ⟨rfl, hne, hmem, rfl, rfl⟩
        exact ⟨⟨hne, hmem⟩, rfl, rfl, rfl⟩
  · next hother =>
      constructor
      · intro h
        exact absurd h (by simp)
      · rintro ⟨href, -⟩
        exact absurd href (hother target)

theorem target?_eq (h : f.Linkable) (m : Model) :
    target? names f = .ok ((edge? names m f).map Edge.target) := by
  rw [Field.Linkable] at h
  rw [target?, edge?]
  generalize f.ref = v at h ⊢
  cases v with
  | str s =>
      by_cases hs : s ≠ "" ∧ s ∈ names
      · simp [hs]
      · simp [hs]
  | arr items =>
      cases items with
      | nil => rfl
      | cons item items => exact h.elim
  | obj members =>
      cases members with
      | nil => rfl
      | cons first members => exact h.elim
  | _ => rfl

theorem edgesOf_eq {fs : List Field} (h : ∀ f ∈ fs, f.Linkable) :
    edgesOf names m fs = .ok (fs.filterMap (edge? names m)) := by
  induction fs with
  | nil => rfl
  | cons f fs ih =>
      obtain ⟨hf, hfs⟩ := List.forall_mem_cons.1 h
      rw [edgesOf, target?_eq hf m, ih hfs]
      cases hedge : edge? names m f with
      | none => simp [hedge, bind, Except.bind, pure, Except.pure]
      | some e =>
          obtain ⟨-, -, -, hsource, hfield⟩ := edge?_eq_some_iff.1 hedge
          have he : (⟨m.name, e.target, f.name⟩ : Edge) = e := by rw [← hsource, ← hfield]
          simp [hedge, he, bind, Except.bind, pure, Except.pure]

end

theorem mapM_edgesOf {ms : List Model} (h : ∀ m ∈ ms, ∀ f ∈ m.fields, f.Linkable)
    (names : List String) : ms.mapM (fun m => edgesOf names m m.fields) =
      .ok (ms.map fun m => m.fields.filterMap (edge? names m)) := by
  induction ms with
  | nil => rfl
  | cons m ms ih =>
      obtain ⟨hm, hms⟩ := List.forall_mem_cons.1 h
      rw [List.mapM_cons, edgesOf_eq hm, ih hms]
      rfl

theorem edges_eq {ms : List Model} (h : ∀ m ∈ ms, ∀ f ∈ m.fields, f.Linkable) :
    edges ms = .ok (edgesTo (ms.map Model.name) ms) := by
  rw [edges, mapM_edgesOf h, edgesTo, List.flatMap_def]
  rfl

theorem mem_edgesTo {names : List String} {ms : List Model} {e : Edge} (h : e ∈ edgesTo names ms) :
    e.source ∈ ms.map Model.name ∧ e.target ∈ names := by
  obtain ⟨m, hm, he⟩ := List.mem_flatMap.1 h
  obtain ⟨f, -, hf⟩ := List.mem_filterMap.1 he
  obtain ⟨-, -, htarget, hsource, -⟩ := edge?_eq_some_iff.1 hf
  rw [hsource]
  exact ⟨List.mem_map_of_mem hm, htarget⟩

theorem filter_edge? {few many : List String} (h : few ⊆ many) (m : Model) (f : Field) :
    (edge? many m f).filter (fun e => e.target ∈ few) = edge? few m f := by
  refine Option.ext fun e => ?_
  rw [Option.filter_eq_some_iff, edge?_eq_some_iff, edge?_eq_some_iff, decide_eq_true_eq]
  constructor
  · rintro ⟨⟨href, hne, -, hends⟩, hfew⟩
    exact ⟨href, hne, hfew, hends⟩
  · rintro ⟨href, hne, hfew, hends⟩
    exact ⟨⟨href, hne, h hfew, hends⟩, hfew⟩

theorem filter_edgesTo {few many : List String} (h : few ⊆ many) (ms : List Model) :
    (edgesTo many ms).filter (fun e => e.target ∈ few) = edgesTo few ms := by
  rw [edgesTo, edgesTo, List.filter_flatMap]
  congr 1
  funext m
  rw [List.filter_filterMap]
  congr 1
  funext f
  exact filter_edge? h m f

theorem edges_merged (perFile : List (List Model))
    (h : ∀ m ∈ perFile.flatten, ∀ f ∈ m.fields, f.Linkable) :
    (∀ name ∈ perFile.flatten.map Model.name,
      ((Extraction.merged perFile).map Model.name).count name = 1) ∧
    ∃ es, edges (Extraction.merged perFile) = .ok es ∧
      es.filter (fun e => e.target ∈ perFile.flatten.map Model.name) =
        edgesTo (perFile.flatten.map Model.name) (Extraction.merged perFile) ∧
      ∀ e ∈ es, e.source ∈ (Extraction.merged perFile).map Model.name ∧
        e.target ∈ (Extraction.merged perFile).map Model.name := by
  have hsubset := Extraction.names_subset_merged perFile
  have hlinkable : ∀ m ∈ Extraction.merged perFile, ∀ f ∈ m.fields, f.Linkable := by
    intro m hm
    obtain ⟨own, hown, hfields⟩ := Extraction.exists_fields_of_mem_merge hm
    rw [← hfields]
    exact h own hown
  constructor
  · intro name hname
    exact List.count_eq_one_of_mem (Extraction.nodup_names_merged perFile) (hsubset hname)
  · exact ⟨_, edges_eq hlinkable, filter_edgesTo hsubset _, fun e he => mem_edgesTo he⟩

def crossedUsers : List (List Model) :=
  [[⟨"User", "a/user.js", []⟩], [⟨"User", "b/user.js", [{ name := "self", ref := .str "User" }]⟩],
    [⟨"User_user.js", "c.js", []⟩,
      ⟨"Post", "c.js", [{ name := "by", ref := .str "User_user.js" }]⟩]]

theorem edges_crossedUsers :
    (∀ m ∈ crossedUsers.flatten, ∀ f ∈ m.fields, f.Linkable) ∧
    ((Extraction.merged crossedUsers).map Model.name).count "User_user.js" = 1 ∧
    ∃ es, edges (Extraction.merged crossedUsers) = .ok es ∧
      es.filter (fun e => e.target ∈ crossedUsers.flatten.map Model.name) =
        [⟨"User_user.js", "User", "self"⟩, ⟨"Post", "User_user.js", "by"⟩] := by
  have hlinkable : ∀ m ∈ crossedUsers.flatten, ∀ f ∈ m.fields, f.Linkable := by
    simp [crossedUsers, Field.Linkable]
  obtain ⟨hcount, es, hes, hedges, -⟩ := edges_merged crossedUsers hlinkable
  exact ⟨hlinkable, hcount "User_user.js" (by decide), es, hes, hedges.trans rfl⟩

end Diagram

end SchemaDiagram
