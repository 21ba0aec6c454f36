import SchemaDiagram.Proofs.Schema.ModelJson
import SchemaDiagram.Proofs.Store.Keys
import SchemaDiagram.Proofs.Store.Tables

/-!
Stores that come about by keeping and deleting diagrams, and what a change for one slot means to
another one.
-/

namespace SchemaDiagram

namespace DiagramEntry

theorem toRecord_ofRecord (r : DiagramRecord) (repository user : String) :
    (ofRecord r).toRecord repository user = r := by
  have hmodels : (ofRecord r).models = r.models := by
    have hread : Model.ofJson ∘ Model.toJson = id := funext Model.ofJson_toJson
    have hlookup : (ofRecord r).lookup "models" = some (.arr (r.models.map Model.toJson)) := rfl
    rw [models, hlookup, Model.objectsIn_map fun _ => rfl, List.map_map, hread, List.map_id]
  rw [toRecord, hmodels]
  rfl

theorem holds_user (r : DiagramRecord) (user : String) :
    (ofRecord r).holds "user" user = (r.user == user) := rfl

theorem holds_repository (r : DiagramRecord) (repository : String) :
    (ofRecord r).holds "repository" repository = (r.repository == repository) := rfl

end DiagramEntry

namespace DiagramRecord

def slot (r : DiagramRecord) : Slot :=
  ⟨r.repository, r.user⟩

end DiagramRecord

inductive Operation where
  | upsert (now : String) (p : Slot) (models : List Model)
  | delete (p : Slot)

namespace Operation

def slot : Operation → Slot
  | .upsert _ p _ => p
  | .delete p => p

def apply (s : DiagramStore) : Operation → DiagramStore
  | .upsert now p models => (s.upsert now p.repository p.user models).2
  | .delete p => (s.delete p.repository p.user).2

end Operation

namespace DiagramStore

def after (history : List Operation) : DiagramStore :=
  history.foldl Operation.apply .empty

def entryOf (s : DiagramStore) (p : Slot) : Option DiagramEntry :=
  s.entryAt? p.repository p.user

theorem entryOf_apply_of_ne {p : Slot} (s : DiagramStore) {op : Operation}
    (h : p.key ≠ op.slot.key) : (op.apply s).entryOf p = s.entryOf p := by
  cases op with
  | upsert now q models => exact entryAt?_upsert_of_ne s now models h
  | delete q => exact entryAt?_delete_of_ne s h

/-- Each entry is a whole record of an allowed slot, under the key of that slot. -/
structure Sound (allowed : Slot → Prop) (s : DiagramStore) : Prop where
  nodup : (s.entries.map Prod.fst).Nodup
  keyed : ∀ entry ∈ s.entries, ∃ r : DiagramRecord,
    allowed r.slot ∧ entry = (r.slot.key, .ofRecord r)

section

variable {allowed : Slot → Prop}

theorem sound_empty : Sound allowed .empty where
  nodup := List.nodup_nil
  keyed _ h := absurd h List.not_mem_nil

theorem Sound.apply {s : DiagramStore} (h : s.Sound allowed) {op : Operation}
    (hop : allowed op.slot) : (op.apply s).Sound allowed := by
  cases op with
  | upsert now p models =>
      refine ⟨Json.nodup_put _ h.nodup, fun entry hentry => ?_⟩
      rcases Json.mem_put hentry with rfl | hmem
      · exact ⟨s.recordAt now p.repository p.user models, hop, rfl⟩
      · exact h.keyed entry hmem
  | delete p =>
      simp only [Operation.apply, delete]
      split
      · exact h
      · exact ⟨Json.nodup_erase _ h.nodup,
          fun entry hentry => h.keyed entry (List.mem_of_mem_filter hentry)⟩

theorem Sound.run {s : DiagramStore} (h : s.Sound allowed) {history : List Operation}
    (hallowed : ∀ op ∈ history, allowed op.slot) :
    (history.foldl Operation.apply s).Sound allowed := by
  induction history generalizing s with
  | nil => exact h
  | cons op history ih =>
      exact ih (h.apply (hallowed op (by simp))) fun other hother =>
        hallowed other (List.mem_cons_of_mem _ hother)

theorem sound_after {history : List Operation} (hallowed : ∀ op ∈ history, allowed op.slot) :
    (after history).Sound allowed :=
  sound_empty.run hallowed

end

structure Answers where
  found : Option DiagramRecord
  got : Except String DiagramRecord
  deleted : Bool
  listed : List DiagramRecord

def answers (s : DiagramStore) (p : Slot) : Answers :=
  { found := s.find? p.repository p.user
    got := s.get p.repository p.user
    deleted := (s.delete p.repository p.user).1
    listed := s.records p.user (some p.repository) }

theorem isOf_ofRecord (r : DiagramRecord) (p : Slot) (key : String) :
    isOf p.user (some p.repository) (key, .ofRecord r) = (r.slot == p) := by
  rw [isOf, Option.all_some, DiagramEntry.holds_user, DiagramEntry.holds_repository, Bool.eq_iff_iff]
  cases p
  simp [DiagramRecord.slot, and_comm]

theorem isOf_ofRecord_of_ne {r : DiagramRecord} {p : Slot} (h : p.key ≠ r.slot.key) (key : String) :
    isOf p.user (some p.repository) (key, .ofRecord r) = false := by
  rw [isOf_ofRecord, beq_eq_false_iff_ne]
  rintro rfl
  exact h rfl

section

variable {allowed : Slot → Prop}

theorem Sound.isOf_eq_false {s : DiagramStore} (h : s.Sound allowed) {p : Slot} {key : String}
    (hkey : p.key ≠ key) (e : DiagramEntry) (he : (key, e) ∈ s.entries) :
    isOf p.user (some p.repository) (key, e) = false := by
  obtain ⟨r, -, hr⟩ := h.keyed _ he
  obtain ⟨rfl, rfl⟩ := Prod.mk.inj hr
  exact isOf_ofRecord_of_ne hkey _

theorem Sound.filter_apply {s : DiagramStore} (h : s.Sound allowed) {p : Slot} {op : Operation}
    (hkey : p.key ≠ op.slot.key) :
    (op.apply s).entries.filter (isOf p.user (some p.repository)) =
      s.entries.filter (isOf p.user (some p.repository)) := by
  cases op with
  | upsert now q models =>
      have hslot : p.key ≠ (s.recordAt now q.repository q.user models).slot.key := hkey
      refine Json.filter_put ?_ fun e he => h.isOf_eq_false hkey e he
      exact isOf_ofRecord_of_ne hslot _
  | delete q =>
      simp only [Operation.apply, delete]
      split
      · rfl
      · exact Json.filter_erase fun e he => h.isOf_eq_false hkey e he

theorem answers_apply {s : DiagramStore} (h : s.Sound allowed) {p : Slot} {op : Operation}
    (hkey : p.key ≠ op.slot.key) : (op.apply s).answers p = s.answers p := by
  have hentry : (op.apply s).entryAt? p.repository p.user = s.entryAt? p.repository p.user :=
    entryOf_apply_of_ne s hkey
  have hfind : (op.apply s).find? p.repository p.user = s.find? p.repository p.user := by
    rw [find?, find?, hentry]
  have hget : (op.apply s).get p.repository p.user = s.get p.repository p.user := by
    rw [get, get, hfind]
  rw [answers, answers, hfind, hget, delete_fst, delete_fst, hentry, records, records,
    h.filter_apply hkey]

end

theorem find?_upsert (s : DiagramStore) (now : String) (p : Slot) (models : List Model) :
    ((s.upsert now p.repository p.user models).2.find? p.repository p.user) =
      some (s.upsert now p.repository p.user models).1 := by
  rw [find?, entryAt?_upsert_self]
  exact congrArg some (DiagramEntry.toRecord_ofRecord _ _ _)

theorem isolated_iff {p q : Slot} (hne : p ≠ q) :
    (∀ (history : List Operation) (op : Operation), op.slot = p →
      (op.apply (after history)).answers q = (after history).answers q) ↔
      ¬ (p.Shadows q ∨ q.Shadows p) := by
  have hkey : ¬ (p.Shadows q ∨ q.Shadows p) ↔ q.key ≠ p.key := by
    rw [ne_eq, eq_comm, Slot.key_eq_iff]
    simp [hne]
  rw [hkey]
  constructor
  · intro hisolated hsame
    -- In the empty store an upsert for the first slot is found for the second one as well.
    have hfound := congrArg Answers.found (hisolated [] (.upsert "" p []) rfl)
    have hentry : (Operation.apply (after []) (.upsert "" p [])).entryAt? q.repository q.user =
        some (.ofRecord ((after []).recordAt "" p.repository p.user [])) := by
      have hself := entryAt?_upsert_self (after []) "" p.repository p.user []
      rw [entryAt?] at hself ⊢
      rw [show key q.repository q.user = key p.repository p.user from hsame]
      exact hself
    rw [answers, find?, hentry] at hfound
    exact absurd hfound (by simp [answers, find?, after, empty, entryAt?, DiagramEntry.ofRecord])
  · rintro hne history op rfl
    have hsound : (after history).Sound fun _ => True := sound_after fun _ _ => trivial
    exact answers_apply hsound hne

theorem isolated_users :
    (⟨"shop", "alice"⟩ : Slot) ≠ ⟨"shop", "bob"⟩ ∧
    ∀ (history : List Operation) (op : Operation), op.slot = ⟨"shop", "alice"⟩ →
      (op.apply (after history)).answers ⟨"shop", "bob"⟩ =
        (after history).answers ⟨"shop", "bob"⟩ := by
  refine ⟨by decide, (isolated_iff (by decide)).2 ?_⟩
  rintro (h | h)
  · exact Slot.not_shadows (by decide) h
  · exact Slot.not_shadows (by decide) h

theorem shadowed_diagram_found :
    (⟨"b::c", "a"⟩ : Slot) ≠ ⟨"c", "a::b"⟩ ∧
    (after []).find? "c" "a::b" = none ∧
    (Operation.apply (after []) (.upsert "2024-01-01T00:00:00Z" ⟨"b::c", "a"⟩ [])).find?
        "c" "a::b" =
      some
        { repository := "b::c"
          user := "a"
          models := []
          createdAt := "2024-01-01T00:00:00Z"
          updatedAt := "2024-01-01T00:00:00Z" } :=
  ⟨by decide, rfl, rfl⟩

end DiagramStore

end SchemaDiagram
