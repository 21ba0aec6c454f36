import Mathlib.Data.String.Basic
import SchemaDiagram.Json.Display
import SchemaDiagram.Json.Writer
import SchemaDiagram.Proofs.Json.Lawful

namespace SchemaDiagram.Json

section

variable {α β : Type}

theorem perm_insertSorted (entry : String × α) (table : List (String × α)) :
    (insertSorted entry table).Perm (entry :: table) := by
  induction table with
  | nil => exact .refl _
  | cons first rest ih =>
      rw [insertSorted]
      split
      · exact .refl _
      · exact (ih.cons first).trans (.swap entry first rest)

theorem perm_sortByName (table : List (String × α)) : (sortByName table).Perm table := by
  induction table with
  | nil => exact .refl _
  | cons first rest ih => exact (perm_insertSorted first _).trans (ih.cons first)

theorem mem_sortByName {entry : String × α} {table : List (String × α)} :
    entry ∈ sortByName table ↔ entry ∈ table :=
  (perm_sortByName table).mem_iff

theorem nodup_sortByName {table : List (String × α)} (h : (table.map Prod.fst).Nodup) :
    ((sortByName table).map Prod.fst).Nodup :=
  ((perm_sortByName table).map Prod.fst).nodup_iff.2 h

theorem lookup_eq_some_iff {table : List (String × α)} (h : (table.map Prod.fst).Nodup)
    {name : String} {value : α} : table.lookup name = some value ↔ (name, value) ∈ table := by
  induction table with
  | nil => simp
  | cons first rest ih =>
      obtain ⟨k, v⟩ := first
      rw [List.map_cons, List.nodup_cons] at h
      by_cases hk : name = k
      · subst hk
        have hnot : (name, value) ∉ rest := fun hmem =>
          h.1 (List.mem_map.2 ⟨(name, value), hmem, rfl⟩)
        simp [hnot, eq_comm]
      · have hbeq : (name == k) = false := by simpa using hk
        simp [List.lookup_cons, hbeq, hk, ih h.2]

theorem mem_put_of_nodup {table : List (String × α)} (h : (table.map Prod.fst).Nodup) {name : String}
    {value : α} {entry : String × α} (hentry : entry ∈ put name value table) :
    entry = (name, value) ∨ entry.1 ≠ name ∧ entry ∈ table := by
  have hlookup := (lookup_eq_some_iff (nodup_put value h)).2 hentry
  by_cases hname : entry.1 = name
  · rw [hname, lookup_put_self] at hlookup
    exact .inl (Prod.ext hname (Option.some.inj hlookup).symm)
  · rw [lookup_put_of_ne _ _ hname] at hlookup
    exact .inr ⟨hname, (lookup_eq_some_iff h).1 hlookup⟩

theorem lookup_sortByName {table : List (String × α)} (h : (table.map Prod.fst).Nodup)
    (name : String) : (sortByName table).lookup name = table.lookup name := by
  refine Option.ext fun value => ?_
  rw [lookup_eq_some_iff (nodup_sortByName h), lookup_eq_some_iff h, mem_sortByName]

theorem lookup_map (f : α → β) (table : List (String × α)) (name : String) :
    (table.map fun entry => (entry.1, f entry.2)).lookup name = (table.lookup name).map f := by
  induction table with
  | nil => rfl
  | cons first rest ih =>
      rw [List.map_cons, List.lookup_cons, List.lookup_cons, ih]
      cases name == first.1 <;> rfl

theorem insertSorted_map (f : α → β) (entry : String × α) (table : List (String × α)) :
    insertSorted (entry.1, f entry.2) (table.map fun e => (e.1, f e.2)) =
      (insertSorted entry table).map fun e => (e.1, f e.2) := by
  induction table with
  | nil => rfl
  | cons first rest ih =>
      rw [List.map_cons, insertSorted, insertSorted]
      split
      · rfl
      · rw [ih, List.map_cons]

theorem sortByName_map (f : α → β) (table : List (String × α)) :
    sortByName (table.map fun e => (e.1, f e.2)) = (sortByName table).map fun e => (e.1, f e.2) := by
  induction table with
  | nil => rfl
  | cons first rest ih =>
      change insertSorted _ (sortByName (rest.map fun e => (e.1, f e.2))) = _
      rw [ih]
      exact insertSorted_map f first (sortByName rest)

def InOrder (table : List (String × α)) : Prop :=
  table.Pairwise fun e f => e.1 ≤ f.1

theorem inOrder_insertSorted (entry : String × α) {table : List (String × α)} (h : InOrder table) :
    InOrder (insertSorted entry table) := by
  induction table with
  | nil => exact List.pairwise_singleton _ _
  | cons first rest ih =>
      obtain ⟨hfirst, hrest⟩ := List.pairwise_cons.1 h
      rw [insertSorted]
      split
      · next hle =>
          refine List.pairwise_cons.2 ⟨fun e he => ?_, h⟩
          rcases List.mem_cons.1 he with rfl | he
          · exact hle
          · exact le_trans hle (hfirst e he)
      · next hlt =>
          refine List.pairwise_cons.2 ⟨fun e he => ?_, ih hrest⟩
          rcases List.mem_cons.1 ((perm_insertSorted entry rest).mem_iff.1 he) with rfl | he
          · exact le_of_lt (not_le.1 hlt)
          · exact hfirst e he

theorem inOrder_sortByName (table : List (String × α)) : InOrder (sortByName table) := by
  induction table with
  | nil => exact List.Pairwise.nil
  | cons first rest ih => exact inOrder_insertSorted first ih

theorem sortByName_of_inOrder {table : List (String × α)} (h : InOrder table) :
    sortByName table = table := by
  induction table with
  | nil => rfl
  | cons first rest ih =>
      obtain ⟨hfirst, hrest⟩ := List.pairwise_cons.1 h
      change insertSorted first (sortByName rest) = first :: rest
      rw [ih hrest]
      cases rest with
      | nil => rfl
      | cons second rest => rw [insertSorted, if_pos (hfirst second (by simp))]

theorem sortByName_sortByName (table : List (String × α)) :
    sortByName (sortByName table) = sortByName table :=
  sortByName_of_inOrder (inOrder_sortByName table)

end

theorem sortedItems_eq (items : List Json) : sorted.sortedItems items = items.map sorted := by
  induction items with
  | nil => rfl
  | cons v vs ih => rw [sorted.sortedItems, ih, List.map_cons]

theorem sortedMembers_eq (members : List (String × Json)) :
    sorted.sortedMembers members = members.map fun m => (m.1, m.2.sorted) := by
  induction members with
  | nil => rfl
  | cons m ms ih =>
      obtain ⟨k, v⟩ := m
      rw [sorted.sortedMembers, ih, List.map_cons]

theorem sorted_arr (items : List Json) : (Json.arr items).sorted = .arr (items.map sorted) := by
  rw [sorted, sortedItems_eq]

theorem sorted_obj (members : List (String × Json)) :
    (Json.obj members).sorted = .obj (sortByName (members.map fun m => (m.1, m.2.sorted))) := by
  rw [sorted, sortedMembers_eq]

theorem map_fst_sorted (members : List (String × Json)) :
    (members.map fun m => (m.1, m.2.sorted)).map Prod.fst = members.map Prod.fst := by
  rw [List.map_map]
  rfl

theorem lawful_sorted {v : Json} (h : v.Lawful) : v.sorted.Lawful := by
  induction v using induction_on with
  | null => exact h
  | bool b => exact h
  | int n => exact h
  | float x => exact h
  | str s => exact h
  | arr items ih =>
      rw [sorted_arr, lawful_arr]
      rw [lawful_arr] at h
      intro w hw
      obtain ⟨v, hv, rfl⟩ := List.mem_map.1 hw
      exact ih v hv (h v hv)
  | obj members ih =>
      rw [sorted_obj, lawful_obj]
      rw [lawful_obj] at h
      refine ⟨nodup_sortByName (by rw [map_fst_sorted]; exact h.1), fun w hw => ?_⟩
      obtain ⟨m, hm, rfl⟩ := List.mem_map.1 (mem_sortByName.1 hw)
      exact ih m hm (h.2 m hm)

theorem sorted_sorted (v : Json) : v.sorted.sorted = v.sorted := by
  induction v using induction_on with
  | null => rfl
  | bool b => rfl
  | int n => rfl
  | float x => rfl
  | str s => rfl
  | arr items ih =>
      rw [sorted_arr, sorted_arr, List.map_map]
      exact congrArg Json.arr (List.map_congr_left ih)
  | obj members ih =>
      have hmembers : (members.map fun m => (m.1, m.2.sorted)).map (fun m => (m.1, m.2.sorted)) =
          members.map fun m => (m.1, m.2.sorted) := by
        rw [List.map_map]
        exact List.map_congr_left fun m hm => Prod.ext rfl (ih m hm)
      rw [sorted_obj, sorted_obj, ← sortByName_map, hmembers, sortByName_sortByName]

theorem get?_sorted {v : Json} (h : v.Lawful) (name : String) :
    v.sorted.get? name = (v.get? name).map sorted := by
  cases v with
  | obj members =>
      rw [lawful_obj] at h
      rw [sorted_obj]
      change (sortByName _).lookup name = (members.lookup name).map sorted
      rw [lookup_sortByName (by rw [map_fst_sorted]; exact h.1), lookup_map]
  | arr items =>
      rw [sorted_arr]
      rfl
  | _ => rfl

theorem isTruthy_sorted (v : Json) : v.sorted.isTruthy = v.isTruthy := by
  cases v with
  | obj members =>
      rw [sorted_obj]
      have hempty := (perm_sortByName (members.map fun m => (m.1, m.2.sorted))).isEmpty_eq
      rw [List.isEmpty_map] at hempty
      rw [isTruthy, isTruthy, hempty]
  | arr items =>
      rw [sorted_arr]
      simp [isTruthy]
  | _ => rfl

end SchemaDiagram.Json
