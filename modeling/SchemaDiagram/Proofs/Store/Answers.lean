import SchemaDiagram.Proofs.Store.Entries
import SchemaDiagram.Proofs.Store.Refinement

namespace SchemaDiagram.DiagramStore

def Relists (s t : DiagramStore) (user : String) (repository : Option String) : Prop :=
  ∃ again : DiagramEntry → DiagramEntry,
    (t.records user repository).Perm
      ((s.entries.filter (isOf user repository)).map fun entry =>
        shown user (entry.1, again entry.2)) ∧
    ∀ entry ∈ s.entries, isOf user repository entry →
      (again entry.2).sorted = entry.2.sorted ∧
      (entry.2.Legible →
        (shown user (entry.1, again entry.2)).sorted = (shown user entry).sorted)

/-- Whether two stores answer alike: their entries are the same but for the order of members, and so
is all that they find and list, unless a text shows that order. -/
structure SameAnswers (s t : DiagramStore) : Prop where
  entries : ∀ repository user,
    (t.entryAt? repository user).map DiagramEntry.sorted =
      (s.entryAt? repository user).map DiagramEntry.sorted
  found : ∀ repository user, (∀ e ∈ s.entryAt? repository user, e.Legible) →
    (t.find? repository user).map DiagramRecord.sorted =
      (s.find? repository user).map DiagramRecord.sorted
  relisted : ∀ user repository, Relists s t user repository
  listed : ∀ user repository,
    (∀ entry ∈ s.entries, isOf user repository entry → entry.2.Legible) →
      ((t.records user repository).map DiagramRecord.sorted).Perm
        ((s.records user repository).map DiagramRecord.sorted)
  times : ∀ user repository,
    (∀ entry ∈ s.entries, isOf user repository entry →
      (Json.obj entry.2).SaysInOrder "updated_at") →
        (t.records user repository).map DiagramRecord.updatedAt =
          (s.records user repository).map DiagramRecord.updatedAt

theorem records_perm (s : DiagramStore) (user : String) (repository : Option String) :
    (s.records user repository).Perm
      ((s.entries.filter (isOf user repository)).map (shown user)) :=
  newestFirst_perm _

theorem Relists.perm {s t : DiagramStore} {user : String} {repository : Option String}
    (h : Relists s t user repository)
    (hlegible : ∀ entry ∈ s.entries, isOf user repository entry → entry.2.Legible) :
    ((t.records user repository).map DiagramRecord.sorted).Perm
      ((s.records user repository).map DiagramRecord.sorted) := by
  obtain ⟨again, hperm, hagain⟩ := h
  refine (hperm.map _).trans (List.Perm.trans ?_ ((s.records_perm user repository).map _).symm)
  rw [List.map_map, List.map_map]
  refine .of_eq (List.map_congr_left fun entry hentry => ?_)
  obtain ⟨hmem, hof⟩ := List.mem_filter.1 hentry
  exact (hagain entry hmem hof).2 (hlegible entry hmem hof)

theorem sameAnswers_of_entries {s t : DiagramStore} (h : t.entries = s.entries) :
    SameAnswers s t := by
  have hrecords : ∀ user repository, t.records user repository = s.records user repository := by
    intro user repository
    rw [records, records, h]
  refine ⟨fun repository user => ?_, fun repository user _ => ?_, fun user repository => ?_,
    fun user repository _ => ?_, fun user repository _ => ?_⟩
  · rw [entryAt?, entryAt?, h]
  · rw [find?, find?, entryAt?, entryAt?, h]
  · refine ⟨id, ?_, fun entry _ _ => ⟨rfl, fun _ => rfl⟩⟩
    rw [hrecords]
    exact s.records_perm user repository
  · rw [hrecords]
  · rw [hrecords]

theorem find?_eq_map {s : DiagramStore} (h : WellKept s.entries) (repository user : String) :
    s.find? repository user =
      (s.entryAt? repository user).map fun e => e.toRecord repository user := by
  rw [find?]
  cases hentry : s.entryAt? repository user with
  | none => rfl
  | some e =>
      cases e with
      | nil =>
          have hmem := (Json.lookup_eq_some_iff h.nodup).1 hentry
          exact absurd (h.models _ hmem) (by simp)
      | cons first rest => rfl

theorem isOf_sorted {user : String} {repository : Option String} {entry : String × DiagramEntry}
    (h : (Json.obj entry.2).Lawful) :
    isOf user repository (entry.1, entry.2.sorted) = isOf user repository entry := by
  rw [isOf, isOf, DiagramEntry.holds_sorted h]
  cases repository with
  | none => rfl
  | some name => rw [Option.all_some, Option.all_some, DiagramEntry.holds_sorted h]

theorem shown_sorted {entry : String × DiagramEntry} (hlawful : (Json.obj entry.2).Lawful)
    (h : entry.2.Legible) (user : String) :
    shown user (entry.1, entry.2.sorted) = (shown user entry).sorted := by
  rw [shown, shown, DiagramEntry.text_sorted hlawful h.repository,
    DiagramEntry.toRecord_sorted hlawful h]

theorem filter_inOrder {entries : Entries} (hkept : WellKept entries) (user : String)
    (repository : Option String) :
    ((inOrder entries).filter (isOf user repository)).Perm
      ((entries.filter (isOf user repository)).map fun entry => (entry.1, entry.2.sorted)) := by
  have hperm := (Json.perm_sortByName (entries.map fun entry => (entry.1, entry.2.sorted))).filter
    (isOf user repository)
  have hfilter : entries.filter
      (isOf user repository ∘ fun entry => (entry.1, entry.2.sorted)) =
        entries.filter (isOf user repository) :=
    List.filter_congr fun entry hentry => isOf_sorted (hkept.lawful entry hentry)
  rw [List.filter_map, hfilter] at hperm
  exact hperm

theorem records_inOrder {s t : DiagramStore} (hkept : WellKept s.entries)
    (h : t.entries = inOrder s.entries) (user : String) (repository : Option String) :
    (t.records user repository).Perm
      ((s.entries.filter (isOf user repository)).map fun entry =>
        shown user (entry.1, entry.2.sorted)) := by
  have hperm := (filter_inOrder hkept user repository).map (shown user)
  rw [← h, List.map_map] at hperm
  exact (t.records_perm user repository).trans hperm

theorem relists_inOrder {s t : DiagramStore} (hkept : WellKept s.entries)
    (h : t.entries = inOrder s.entries) (user : String) (repository : Option String) :
    Relists s t user repository := by
  refine ⟨DiagramEntry.sorted, records_inOrder hkept h user repository, fun entry hentry _ =>
    ⟨DiagramEntry.sorted_sorted entry.2, fun hlegible => ?_⟩⟩
  rw [shown_sorted (hkept.lawful entry hentry) hlegible, DiagramRecord.sorted_sorted]

theorem insertNewest_newest (r : DiagramRecord) {rs : List DiagramRecord}
    (h : rs.Pairwise fun p q => q.updatedAt ≤ p.updatedAt) :
    (insertNewest r rs).Pairwise fun p q => q.updatedAt ≤ p.updatedAt := by
  induction rs with
  | nil => exact List.pairwise_singleton _ _
  | cons q qs ih =>
      obtain ⟨hq, hqs⟩ := List.pairwise_cons.1 h
      rw [insertNewest]
      split
      · next hle =>
          refine List.pairwise_cons.2 ⟨fun p hp => ?_, h⟩
          rcases List.mem_cons.1 hp with rfl | hp
          · exact hle
          · exact le_trans (hq p hp) hle
      · next hlt =>
          refine List.pairwise_cons.2 ⟨fun p hp => ?_, ih hqs⟩
          rcases List.mem_cons.1 ((insertNewest_perm r qs).mem_iff.1 hp) with rfl | hp
          · exact le_of_lt (not_le.1 hlt)
          · exact hq p hp

theorem newestFirst_newest (rs : List DiagramRecord) :
    (newestFirst rs).Pairwise fun p q => q.updatedAt ≤ p.updatedAt := by
  induction rs with
  | nil => exact List.Pairwise.nil
  | cons r rs ih => exact insertNewest_newest r ih

theorem times_of_perm {s t : DiagramStore} {user : String} {repository : Option String}
    (h : ((t.records user repository).map DiagramRecord.updatedAt).Perm
      ((s.records user repository).map DiagramRecord.updatedAt)) :
    (t.records user repository).map DiagramRecord.updatedAt =
      (s.records user repository).map DiagramRecord.updatedAt := by
  refine h.eq_of_pairwise (fun a b _ _ hba hab => le_antisymm hab hba) ?_ ?_
  · exact List.pairwise_map.2 (newestFirst_newest _)
  · exact List.pairwise_map.2 (newestFirst_newest _)

theorem updatedAt_inOrder {s t : DiagramStore} (hkept : WellKept s.entries)
    (h : t.entries = inOrder s.entries) {user : String} {repository : Option String}
    (htold : ∀ entry ∈ s.entries, isOf user repository entry →
      (Json.obj entry.2).SaysInOrder "updated_at") :
    ((t.records user repository).map DiagramRecord.updatedAt).Perm
      ((s.records user repository).map DiagramRecord.updatedAt) := by
  refine ((records_inOrder hkept h user repository).map _).trans
    (List.Perm.trans ?_ ((s.records_perm user repository).map _).symm)
  rw [List.map_map, List.map_map]
  refine .of_eq (List.map_congr_left fun entry hentry => ?_)
  obtain ⟨hmem, hof⟩ := List.mem_filter.1 hentry
  exact DiagramEntry.text_sorted (hkept.lawful entry hmem) (htold entry hmem hof) ""

theorem sameAnswers_inOrder {s t : DiagramStore} (hkept : WellKept s.entries)
    (h : t.entries = inOrder s.entries) : SameAnswers s t := by
  have hentry : ∀ repository user, t.entryAt? repository user =
      (s.entryAt? repository user).map DiagramEntry.sorted := by
    intro repository user
    rw [entryAt?, h]
    exact lookup_inOrder hkept _
  refine ⟨fun repository user => ?_, fun repository user hlegible => ?_, relists_inOrder hkept h,
    fun user repository => (relists_inOrder hkept h user repository).perm,
    fun user repository htold => times_of_perm (updatedAt_inOrder hkept h htold)⟩
  · have hsorted : DiagramEntry.sorted ∘ DiagramEntry.sorted = DiagramEntry.sorted :=
      funext DiagramEntry.sorted_sorted
    rw [hentry, Option.map_map, hsorted]
  · rw [find?_eq_map (h ▸ wellKept_inOrder hkept), find?_eq_map hkept, hentry]
    cases hfound : s.entryAt? repository user with
    | none => rfl
    | some e =>
        have hlawful := hkept.lawful _ ((Json.lookup_eq_some_iff hkept.nodup).1 hfound)
        simp only [Option.map_some]
        rw [DiagramEntry.toRecord_sorted hlawful (hlegible e hfound), DiagramRecord.sorted_sorted]

end SchemaDiagram.DiagramStore
