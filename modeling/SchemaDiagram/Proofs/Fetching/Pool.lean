import Mathlib.Data.List.Perm.Basic
import Mathlib.Logic.Relation
import SchemaDiagram.Fetching
import SchemaDiagram.Json.Basic

/-!
A pool of workers that take paths in order and are done with them in any order, and the contents
that are collected from it when the wait for it ends.
-/

namespace SchemaDiagram.Fetching

open Repository (Delivery)

abbrev Task := String × Nat

def tasks (paths : List String) : List Task :=
  paths.zipIdx

theorem map_fst_tasks (paths : List String) : (tasks paths).map Prod.fst = paths :=
  List.zipIdx_map_fst 0 paths

theorem mem_iff_exists_task {paths : List String} {path : String} :
    path ∈ paths ↔ ∃ t ∈ tasks paths, t.1 = path := by
  rw [← List.mem_map, map_fst_tasks]

/-- The tasks that no worker has taken yet, those that are being read, and what was delivered for
the others, the latest first. -/
structure Pool where
  waiting : List Task
  running : List Task
  delivered : List (Task × Delivery)

namespace Pool

def start (paths : List String) : Pool :=
  ⟨tasks paths, [], []⟩

inductive Step (workers : Nat) (deliver : String → Delivery) : Pool → Pool → Prop
  | take {t : Task} {waiting running : List Task} {delivered : List (Task × Delivery)} :
      running.length < workers →
      Step workers deliver ⟨t :: waiting, running, delivered⟩ ⟨waiting, t :: running, delivered⟩
  | finish {t : Task} {waiting running : List Task} {delivered : List (Task × Delivery)} :
      t ∈ running → isLate (deliver t.1) = false →
      Step workers deliver ⟨waiting, running, delivered⟩
        ⟨waiting, running.erase t, (t, deliver t.1) :: delivered⟩

def Reached (workers : Nat) (deliver : String → Delivery) (paths : List String) (c : Pool) : Prop :=
  Relation.ReflTransGen (Step workers deliver) (start paths) c

def IsComplete (c : Pool) : Prop :=
  c.waiting = [] ∧ c.running = []

def Came (c : Pool) (path : String) : Prop :=
  ∃ t ∈ c.delivered.map Prod.fst, t.1 = path

instance (c : Pool) (path : String) : Decidable (c.Came path) :=
  inferInstanceAs (Decidable (∃ t ∈ c.delivered.map Prod.fst, t.1 = path))

section

variable {workers : Nat} {deliver : String → Delivery} {paths : List String} {c d : Pool}
  {path : String}

structure Sound (deliver : String → Delivery) (paths : List String) (c : Pool) : Prop where
  perm : (c.waiting ++ (c.running ++ c.delivered.map Prod.fst)).Perm (tasks paths)
  faithful : ∀ entry ∈ c.delivered, entry.2 = deliver entry.1.1
  inTime : ∀ entry ∈ c.delivered, isLate (deliver entry.1.1) = false

theorem sound_start (deliver : String → Delivery) (paths : List String) :
    (start paths).Sound deliver paths where
  perm := by simp [start]
  faithful entry h := absurd h List.not_mem_nil
  inTime entry h := absurd h List.not_mem_nil

theorem Sound.step (h : c.Sound deliver paths) (hstep : Step workers deliver c d) :
    d.Sound deliver paths := by
  cases hstep with
  | take _ => exact ⟨List.perm_middle.trans h.perm, h.faithful, h.inTime⟩
  | @finish t waiting running delivered hmem hlate =>
      refine ⟨?_, ?_, ?_⟩
      · have hrunning : (running.erase t ++ t :: delivered.map Prod.fst).Perm
            (running ++ delivered.map Prod.fst) :=
          List.perm_middle.trans ((List.perm_cons_erase hmem).symm.append_right _)
        exact (hrunning.append_left waiting).trans h.perm
      · intro entry hentry
        rcases List.mem_cons.1 hentry with rfl | hentry
        · rfl
        · exact h.faithful entry hentry
      · intro entry hentry
        rcases List.mem_cons.1 hentry with rfl | hentry
        · exact hlate
        · exact h.inTime entry hentry

theorem Reached.sound (h : Reached workers deliver paths c) : c.Sound deliver paths := by
  induction h with
  | refl => exact sound_start deliver paths
  | tail _ hstep ih => exact ih.step hstep

theorem Sound.came_mem (h : c.Sound deliver paths) (hcame : c.Came path) : path ∈ paths := by
  obtain ⟨t, ht, rfl⟩ := hcame
  refine mem_iff_exists_task.2 ⟨t, h.perm.mem_iff.1 ?_, rfl⟩
  exact List.mem_append_right _ (List.mem_append_right _ ht)

theorem Sound.isLate_of_came (h : c.Sound deliver paths) (hcame : c.Came path) :
    isLate (deliver path) = false := by
  obtain ⟨t, ht, rfl⟩ := hcame
  obtain ⟨entry, hentry, rfl⟩ := List.mem_map.1 ht
  exact h.inTime entry hentry

theorem Sound.came_of_complete (h : c.Sound deliver paths) (hcomplete : c.IsComplete)
    (hpath : path ∈ paths) : c.Came path := by
  obtain ⟨t, ht, rfl⟩ := mem_iff_exists_task.1 hpath
  have hmem := h.perm.mem_iff.2 ht
  rw [hcomplete.1, hcomplete.2, List.nil_append, List.nil_append] at hmem
  exact ⟨t, hmem, rfl⟩

def text? : Delivery → Option String
  | .text content => some content
  | _ => none

theorem or_text? (delivery : Delivery) : (text? delivery).or (some "") = some (textOf delivery) := by
  cases delivery <;> rfl

def collect (c : Pool) (table : List (String × String)) (t : Task) : List (String × String) :=
  match (c.delivered.lookup t).bind text? with
  | some content => Json.put t.1 content table
  | none => table

def blank (paths : List String) : List (String × String) :=
  paths.foldl (fun table path => Json.put path "" table) []

def contents (c : Pool) (paths : List String) : List (String × String) :=
  (tasks paths).foldl c.collect (blank paths)

def text (c : Pool) (paths : List String) (path : String) : String :=
  ((c.contents paths).lookup path).getD ""

theorem lookup_foldl_put (value : String → String) (paths : List String)
    (table : List (String × String)) (path : String) :
    (paths.foldl (fun table p => Json.put p (value p) table) table).lookup path =
      if path ∈ paths then some (value path) else table.lookup path := by
  induction paths generalizing table with
  | nil => rfl
  | cons p paths ih =>
      rw [List.foldl_cons, ih]
      by_cases hmem : path ∈ paths
      · simp [hmem]
      · by_cases hp : path = p
        · subst hp
          simp [hmem, Json.lookup_put_self]
        · simp [hmem, hp, Json.lookup_put_of_ne _ _ hp]

theorem lookup_blank (paths : List String) (path : String) :
    (blank paths).lookup path = if path ∈ paths then some "" else none :=
  lookup_foldl_put (fun _ => "") paths [] path

theorem lookup_delivered_of_not_mem {t : Task} (h : t ∉ c.delivered.map Prod.fst) :
    c.delivered.lookup t = none := by
  refine List.lookup_eq_none_iff.2 fun entry hentry => ?_
  have hne : t ≠ entry.1 := fun heq => h (List.mem_map.2 ⟨entry, hentry, heq.symm⟩)
  simpa using hne

theorem Sound.lookup_delivered (h : c.Sound deliver paths) {t : Task}
    (hmem : t ∈ c.delivered.map Prod.fst) : c.delivered.lookup t = some (deliver t.1) := by
  cases hlookup : c.delivered.lookup t with
  | none =>
      obtain ⟨entry, hentry, rfl⟩ := List.mem_map.1 hmem
      have hne := List.lookup_eq_none_iff.1 hlookup entry hentry
      exact absurd hne (by simp)
  | some delivery =>
      obtain ⟨before, behind, hsplit, -⟩ := List.lookup_eq_some_iff.1 hlookup
      have hentry : (t, delivery) ∈ c.delivered := by simp [hsplit]
      rw [← h.faithful _ hentry]

theorem lookup_collect_of_ne {t : Task} (hne : t.1 = path → t ∉ c.delivered.map Prod.fst)
    (table : List (String × String)) : (c.collect table t).lookup path = table.lookup path := by
  rw [collect]
  cases hread : (c.delivered.lookup t).bind text? with
  | none => rfl
  | some content =>
      have hother : path ≠ t.1 := by
        rintro rfl
        rw [lookup_delivered_of_not_mem (hne rfl)] at hread
        exact absurd hread (by simp)
      exact Json.lookup_put_of_ne content table hother

theorem Sound.lookup_collect (h : c.Sound deliver paths) {t : Task}
    (hmem : t ∈ c.delivered.map Prod.fst) (table : List (String × String)) :
    (c.collect table t).lookup t.1 = (text? (deliver t.1)).or (table.lookup t.1) := by
  rw [collect, h.lookup_delivered hmem, Option.bind_some]
  cases text? (deliver t.1) with
  | none => rfl
  | some content => exact Json.lookup_put_self t.1 content table

theorem lookup_foldl_collect_of_ne {ts : List Task}
    (hne : ∀ t ∈ ts, t.1 = path → t ∉ c.delivered.map Prod.fst)
    (table : List (String × String)) :
    (ts.foldl c.collect table).lookup path = table.lookup path := by
  induction ts generalizing table with
  | nil => rfl
  | cons t ts ih =>
      rw [List.foldl_cons, ih fun u hu => hne u (List.mem_cons_of_mem t hu),
        lookup_collect_of_ne (hne t (by simp))]

theorem Sound.lookup_foldl_collect (h : c.Sound deliver paths) {ts : List Task}
    (hcame : ∃ t ∈ ts, t.1 = path ∧ t ∈ c.delivered.map Prod.fst)
    (table : List (String × String)) :
    (ts.foldl c.collect table).lookup path = (text? (deliver path)).or (table.lookup path) := by
  induction ts generalizing table with
  | nil =>
      obtain ⟨t, ht, -⟩ := hcame
      exact absurd ht List.not_mem_nil
  | cons t ts ih =>
      rw [List.foldl_cons]
      by_cases hlater : ∃ u ∈ ts, u.1 = path ∧ u ∈ c.delivered.map Prod.fst
      · rw [ih hlater]
        by_cases ht : t.1 = path ∧ t ∈ c.delivered.map Prod.fst
        · obtain ⟨rfl, hmem⟩ := ht
          rw [h.lookup_collect hmem, ← Option.or_assoc, Option.or_self]
        · rw [lookup_collect_of_ne fun hpath hmem => ht ⟨hpath, hmem⟩]
      · -- The last delivery for the path is that of the first task.
        have hnone : ∀ u ∈ ts, u.1 = path → u ∉ c.delivered.map Prod.fst :=
          fun u hu hpath hmem => hlater ⟨u, hu, hpath, hmem⟩
        rw [lookup_foldl_collect_of_ne hnone]
        obtain ⟨u, hu, hpath, hmem⟩ := hcame
        rcases List.mem_cons.1 hu with rfl | hu
        · subst hpath
          exact h.lookup_collect hmem table
        · exact absurd hmem (hnone u hu hpath)

theorem lookup_contents_of_not_came (hcame : ¬ c.Came path) :
    (c.contents paths).lookup path = if path ∈ paths then some "" else none := by
  rw [contents, lookup_foldl_collect_of_ne fun t _ hpath hmem => hcame ⟨t, hmem, hpath⟩,
    lookup_blank]

theorem Sound.lookup_contents_of_came (h : c.Sound deliver paths) (hcame : c.Came path) :
    (c.contents paths).lookup path = some (textOf (deliver path)) := by
  have hpath := h.came_mem hcame
  obtain ⟨t, hmem, ht⟩ := hcame
  have htask : t ∈ tasks paths :=
    h.perm.mem_iff.1 (List.mem_append_right _ (List.mem_append_right _ hmem))
  rw [contents, h.lookup_foldl_collect ⟨t, htask, ht, hmem⟩, lookup_blank, if_pos hpath,
    or_text?]

theorem text_of_not_came (hcame : ¬ c.Came path) : c.text paths path = "" := by
  rw [text, lookup_contents_of_not_came hcame]
  split <;> rfl

theorem Sound.text_of_came (h : c.Sound deliver paths) (hcame : c.Came path) :
    c.text paths path = textOf (deliver path) := by
  rw [text, h.lookup_contents_of_came hcame, Option.getD_some]

end

end Pool

def inTurn (deliver : String → Delivery) (paths : List String) : List (String × String) :=
  paths.foldl (fun table path => Json.put path (textOf (deliver path)) table) []

theorem lookup_inTurn (deliver : String → Delivery) (paths : List String) (path : String) :
    (inTurn deliver paths).lookup path =
      if path ∈ paths then some (textOf (deliver path)) else none :=
  Pool.lookup_foldl_put (fun p => textOf (deliver p)) paths [] path

namespace Pool

section

variable {workers : Nat} {deliver : String → Delivery} {paths : List String} {c : Pool}

theorem Sound.lookup_contents_of_complete (h : c.Sound deliver paths)
    (hcomplete : c.IsComplete) (path : String) :
    (c.contents paths).lookup path = (inTurn deliver paths).lookup path := by
  rw [lookup_inTurn]
  by_cases hpath : path ∈ paths
  · rw [if_pos hpath, h.lookup_contents_of_came (h.came_of_complete hcomplete hpath)]
  · rw [lookup_contents_of_not_came fun hcame => hpath (h.came_mem hcame)]
    simp [hpath]

theorem Sound.length_completed (h : c.Sound deliver paths) (hcomplete : c.IsComplete)
    (workers : Nat) : (completed deliver workers paths).length = paths.length := by
  have hlate : ∀ path ∈ paths, isLate (deliver path) = false :=
    fun path hpath => h.isLate_of_came (h.came_of_complete hcomplete hpath)
  rw [completed_of_none_late hlate]

theorem Sound.text_of_complete (h : c.Sound deliver paths) (hcomplete : c.IsComplete)
    (workers : Nat) : c.text paths = content deliver workers paths := by
  have hlate : ∀ path ∈ paths, isLate (deliver path) = false :=
    fun path hpath => h.isLate_of_came (h.came_of_complete hcomplete hpath)
  funext path
  by_cases hpath : path ∈ paths
  · rw [h.text_of_came (h.came_of_complete hcomplete hpath),
      content_of_none_late hlate workers hpath]
  · rw [text_of_not_came fun hcame => hpath (h.came_mem hcame), content,
      started_of_none_late hlate, if_neg hpath]

end

end Pool

end SchemaDiagram.Fetching
