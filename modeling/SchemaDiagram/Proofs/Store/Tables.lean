import Mathlib.Data.List.Nodup
import SchemaDiagram.Json.Basic

namespace SchemaDiagram.Json

section

variable {α : Type} {name : String} {value : α} {table : List (String × α)}

theorem mem_put {entry : String × α} (h : entry ∈ put name value table) :
    entry = (name, value) ∨ entry ∈ table := by
  induction table with
  | nil => exact .inl (List.mem_singleton.1 h)
  | cons first rest ih =>
      obtain ⟨k, v⟩ := first
      by_cases hk : k = name
      · rw [put, if_pos hk] at h
        rcases List.mem_cons.1 h with rfl | h
        · exact .inl (by rw [hk])
        · exact .inr (List.mem_cons_of_mem _ h)
      · rw [put, if_neg hk] at h
        rcases List.mem_cons.1 h with rfl | h
        · exact .inr (by simp)
        · rcases ih h with heq | hmem
          · exact .inl heq
          · exact .inr (List.mem_cons_of_mem _ hmem)

theorem fst_mem_put {k : String} (h : k ∈ (put name value table).map Prod.fst) :
    k = name ∨ k ∈ table.map Prod.fst := by
  obtain ⟨entry, hentry, rfl⟩ := List.mem_map.1 h
  rcases mem_put hentry with rfl | hmem
  · exact .inl rfl
  · exact .inr (List.mem_map_of_mem hmem)

theorem nodup_put (value : α) (h : (table.map Prod.fst).Nodup) :
    ((put name value table).map Prod.fst).Nodup := by
  induction table with
  | nil => simp [put]
  | cons first rest ih =>
      obtain ⟨k, v⟩ := first
      rw [List.map_cons, List.nodup_cons] at h
      obtain ⟨hnotin, hrest⟩ := h
      by_cases hk : k = name
      · rw [put, if_pos hk, List.map_cons, List.nodup_cons]
        exact ⟨hnotin, hrest⟩
      · rw [put, if_neg hk, List.map_cons, List.nodup_cons]
        refine ⟨fun hmem => ?_, ih hrest⟩
        rcases fst_mem_put hmem with heq | hmem
        · exact hk heq
        · exact hnotin hmem

theorem nodup_erase (name : String) (h : (table.map Prod.fst).Nodup) :
    ((erase name table).map Prod.fst).Nodup :=
  h.sublist (List.filter_sublist.map Prod.fst)

theorem filter_put {p : String × α → Bool} (hnew : p (name, value) = false)
    (hold : ∀ v, (name, v) ∈ table → p (name, v) = false) :
    (put name value table).filter p = table.filter p := by
  induction table with
  | nil => simp [put, hnew]
  | cons first rest ih =>
      obtain ⟨k, v⟩ := first
      by_cases hk : k = name
      · subst hk
        have hv : p (k, v) = false := hold v (by simp)
        simp [put, hnew, hv]
      · rw [put, if_neg hk, List.filter_cons, List.filter_cons,
          ih fun w hw => hold w (List.mem_cons_of_mem _ hw)]

theorem filter_erase {p : String × α → Bool}
    (hold : ∀ v, (name, v) ∈ table → p (name, v) = false) :
    (erase name table).filter p = table.filter p := by
  rw [erase, List.filter_filter]
  refine List.filter_congr fun entry hentry => ?_
  obtain ⟨k, v⟩ := entry
  by_cases hk : k = name
  · subst hk
    simp [hold v hentry]
  · simp [hk]

theorem filter_name (name : String) (h : (table.map Prod.fst).Nodup) :
    table.filter (fun entry => entry.1 == name) =
      ((table.lookup name).map fun value => (name, value)).toList := by
  induction table with
  | nil => rfl
  | cons first rest ih =>
      obtain ⟨k, v⟩ := first
      rw [List.map_cons, List.nodup_cons] at h
      obtain ⟨hnotin, hrest⟩ := h
      by_cases hk : k = name
      · subst hk
        have hnone : rest.filter (fun entry => entry.1 == k) = [] := by
          refine List.filter_eq_nil_iff.2 fun entry hentry heq => hnotin ?_
          exact List.mem_map.2 ⟨entry, hentry, beq_iff_eq.1 heq⟩
        simp [hnone]
      · have hne : (name == k) = false := by simpa using fun heq : name = k => hk heq.symm
        simp [hk, List.lookup_cons, hne, ih hrest]

end

end SchemaDiagram.Json
