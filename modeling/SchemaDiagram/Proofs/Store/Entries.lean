import SchemaDiagram.Proofs.Json.PlainText
import SchemaDiagram.Proofs.Json.RoundTrip
import SchemaDiagram.Proofs.Store.Ordering

namespace SchemaDiagram.DiagramStore

abbrev Entries := List (String × DiagramEntry)

structure WellKept (entries : Entries) : Prop where
  nodup : (entries.map Prod.fst).Nodup
  lawful : ∀ entry ∈ entries, (Json.obj entry.2).Lawful
  models : ∀ entry ∈ entries, (entry.2.lookup "models").isSome

theorem wellKept_nil : WellKept [] :=
  ⟨List.nodup_nil, fun _ h => absurd h List.not_mem_nil, fun _ h => absurd h List.not_mem_nil⟩

theorem wellKept_put {entries : Entries} (h : WellKept entries) (k : String) {e : DiagramEntry}
    (he : (Json.obj e).Lawful) (hmodels : (e.lookup "models").isSome) :
    WellKept (Json.put k e entries) where
  nodup := Json.nodup_put e h.nodup
  lawful entry hentry := by
    rcases Json.mem_put hentry with rfl | hmem
    · exact he
    · exact h.lawful entry hmem
  models entry hentry := by
    rcases Json.mem_put hentry with rfl | hmem
    · exact hmodels
    · exact h.models entry hmem

theorem wellKept_erase {entries : Entries} (h : WellKept entries) (k : String) :
    WellKept (Json.erase k entries) where
  nodup := Json.nodup_erase k h.nodup
  lawful entry hentry := h.lawful entry (List.mem_of_mem_filter hentry)
  models entry hentry := h.models entry (List.mem_of_mem_filter hentry)

theorem entryOf?_eq_some {v : Json} {e : DiagramEntry} (h : entryOf? v = some e) :
    v = .obj e ∧ (e.lookup "models").isSome := by
  cases v with
  | obj members =>
      rw [entryOf?] at h
      split at h
      · next hmodels =>
          obtain rfl := Option.some.inj h
          exact ⟨rfl, hmodels⟩
      · simp at h
  | _ => simp [entryOf?] at h

theorem wellKept_filterMap {members : List (String × Json)} (h : (Json.obj members).Lawful) :
    WellKept (members.filterMap fun (k, v) => (entryOf? v).map fun e => (k, e)) := by
  rw [Json.lawful_obj] at h
  induction members with
  | nil => exact wellKept_nil
  | cons first rest ih =>
      obtain ⟨k, v⟩ := first
      rw [List.map_cons, List.nodup_cons] at h
      have hrest := ih ⟨h.1.2, fun m hm => h.2 m (List.mem_cons_of_mem _ hm)⟩
      rw [List.filterMap_cons]
      dsimp only
      cases he : entryOf? v with
      | none => exact hrest
      | some e =>
          obtain ⟨rfl, hmodels⟩ := entryOf?_eq_some he
          refine ⟨List.nodup_cons.2 ⟨fun hk => h.1.1 ?_, hrest.nodup⟩,
            List.forall_mem_cons.2 ⟨h.2 _ List.mem_cons_self, hrest.lawful⟩,
            List.forall_mem_cons.2 ⟨hmodels, hrest.models⟩⟩
          obtain ⟨⟨name, f⟩, hentry, rfl⟩ := List.mem_map.1 hk
          obtain ⟨⟨other, w⟩, hw, heq⟩ := List.mem_filterMap.1 hentry
          obtain ⟨g, -, heq⟩ := Option.map_eq_some_iff.1 heq
          obtain ⟨rfl, -⟩ := Prod.mk.inj heq
          exact List.mem_map.2 ⟨(other, w), hw, rfl⟩

theorem wellKept_entriesOf {v : Json} (hv : v.Lawful) : WellKept (entriesOf v) := by
  rw [entriesOf]
  split
  · next n members hversion hentries =>
      split
      · exact wellKept_filterMap (Model.lawful_of_get? hv hentries)
      · exact wellKept_nil
  · exact wellKept_nil

theorem wellKept_entriesOfBytes [Platform] {bs : Bytes} {entries : Entries}
    (h : entriesOfBytes bs = .ok entries) : WellKept entries := by
  rw [entriesOfBytes] at h
  split at h
  · simp at h
  · rw [entriesOfText] at h
    split at h
    · next v hv =>
        obtain rfl := Except.ok.inj h
        exact wellKept_entriesOf (Json.lawful_parse hv)
    · split at h
      · obtain rfl := Except.ok.inj h
        exact wellKept_nil
      · simp at h

def inOrder (entries : Entries) : Entries :=
  Json.sortByName (entries.map fun entry => (entry.1, entry.2.sorted))

theorem mem_inOrder {entries : Entries} {entry : String × DiagramEntry}
    (h : entry ∈ inOrder entries) : ∃ old ∈ entries, entry = (old.1, old.2.sorted) := by
  obtain ⟨old, hold, heq⟩ := List.mem_map.1 (Json.mem_sortByName.1 h)
  exact ⟨old, hold, heq.symm⟩

theorem map_fst_sorted (entries : Entries) :
    (entries.map fun entry => (entry.1, entry.2.sorted)).map Prod.fst = entries.map Prod.fst := by
  rw [List.map_map]
  rfl

theorem wellKept_inOrder {entries : Entries} (h : WellKept entries) : WellKept (inOrder entries) where
  nodup := Json.nodup_sortByName (by rw [map_fst_sorted]; exact h.nodup)
  lawful entry hentry := by
    obtain ⟨old, hold, rfl⟩ := mem_inOrder hentry
    have hsorted := Json.lawful_sorted (h.lawful old hold)
    rwa [DiagramEntry.sorted_obj] at hsorted
  models entry hentry := by
    obtain ⟨old, hold, rfl⟩ := mem_inOrder hentry
    rw [DiagramEntry.lookup_sorted (h.lawful old hold), Option.isSome_map]
    exact h.models old hold

theorem lookup_inOrder {entries : Entries} (h : WellKept entries) (k : String) :
    (inOrder entries).lookup k = (entries.lookup k).map DiagramEntry.sorted := by
  rw [inOrder, Json.lookup_sortByName (by rw [map_fst_sorted]; exact h.nodup), Json.lookup_map]

theorem lawful_toJson {s : DiagramStore} (h : WellKept s.entries) : s.toJson.Lawful := by
  have hentries : (Json.obj (s.entries.map fun entry => (entry.1, .obj entry.2))).Lawful := by
    refine Json.lawful_obj.2 ⟨?_, fun m hm => ?_⟩
    · rw [List.map_map]
      exact h.nodup
    · obtain ⟨entry, hentry, rfl⟩ := List.mem_map.1 hm
      exact h.lawful entry hentry
  refine Json.lawful_obj.2 ⟨by simp, ?_⟩
  exact List.forall_mem_cons.2 ⟨trivial, List.forall_mem_singleton.2 hentries⟩

theorem filterMap_entryOf? {entries : Entries}
    (h : ∀ entry ∈ entries, (entry.2.lookup "models").isSome) :
    ((entries.map fun entry => (entry.1, Json.obj entry.2)).filterMap fun (k, v) =>
      (entryOf? v).map fun e => (k, e)) = entries := by
  induction entries with
  | nil => rfl
  | cons first rest ih =>
      obtain ⟨hfirst, hrest⟩ := List.forall_mem_cons.1 h
      have hentry : entryOf? (.obj first.2) = some first.2 := if_pos hfirst
      rw [List.map_cons, List.filterMap_cons]
      dsimp only
      rw [hentry, Option.map_some, ih hrest]

theorem entriesOf_sorted {s : DiagramStore} (h : WellKept s.entries) :
    entriesOf s.toJson.sorted = inOrder s.entries := by
  have hlawful := lawful_toJson h
  have hversion : s.toJson.sorted.get? "version" = some (.int version) := by
    rw [Json.get?_sorted hlawful]
    rfl
  have hentries : s.toJson.sorted.get? "entries" =
      some (.obj ((inOrder s.entries).map fun entry => (entry.1, .obj entry.2))) := by
    have hget : s.toJson.get? "entries" =
        some (.obj (s.entries.map fun entry => (entry.1, .obj entry.2))) := rfl
    have hobj : ((s.entries.map fun entry => (entry.1, Json.obj entry.2)).map fun m =>
        (m.1, m.2.sorted)) =
        (s.entries.map fun entry => (entry.1, entry.2.sorted)).map fun entry =>
          (entry.1, .obj entry.2) := by
      rw [List.map_map, List.map_map]
      exact List.map_congr_left fun entry _ => Prod.ext rfl (DiagramEntry.sorted_obj entry.2)
    rw [Json.get?_sorted hlawful, hget, Option.map_some, Json.sorted_obj, hobj, Json.sortByName_map]
    rfl
  rw [entriesOf, hversion, hentries]
  dsimp only
  rw [if_pos (by rfl), filterMap_entryOf? (wellKept_inOrder h).models]

theorem entriesOfBytes_fileText [Platform] {s : DiagramStore} (h : WellKept s.entries) {cs : List Char}
    (hcs : s.fileText = .ok cs) : entriesOfBytes (Utf8.encode cs) = .ok (inOrder s.entries) := by
  have hplain := Json.plainText_written hcs
  have hparse := Json.parse_written (Json.lawful_sorted (lawful_toJson h)) hcs
  rw [entriesOfBytes, Utf8.decode_encode]
  dsimp only
  rw [hplain.plainNewlines_eq, entriesOfText, hparse]
  exact congrArg Except.ok (entriesOf_sorted h)

end SchemaDiagram.DiagramStore
