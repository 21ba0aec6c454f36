import SchemaDiagram.Proofs.Store.Refinement

namespace SchemaDiagram.DiagramStore

def others (s : DiagramStore) (p : Slot) : List (String × DiagramEntry) :=
  Json.erase p.key s.entries

theorem others_apply (s : DiagramStore) (op : Operation) :
    (op.apply s).others op.slot = s.others op.slot := by
  have hself : ∀ e : DiagramEntry, ((op.slot.key, e).1 != op.slot.key) = false := by simp
  cases op with
  | upsert now q models => exact Json.filter_put (hself _) fun e _ => hself e
  | delete q =>
      simp only [Operation.apply, delete]
      split
      · rfl
      · exact Json.filter_erase fun e _ => hself e

section

variable {s t : DiagramStore} {p q : Slot} {user : String} {repository : Option String}

theorem find?_eq_of_entryOf (h : t.entryOf p = s.entryOf p) :
    t.find? p.repository p.user = s.find? p.repository p.user := by
  have hentry : t.entryAt? p.repository p.user = s.entryAt? p.repository p.user := h
  rw [find?, find?, hentry]

theorem entryOf_eq_of_others (h : t.others p = s.others p) (hne : q.key ≠ p.key) :
    t.entryOf q = s.entryOf q := by
  have ht : (t.others p).lookup q.key = t.entryOf q := Json.lookup_erase_of_ne t.entries hne
  have hs : (s.others p).lookup q.key = s.entryOf q := Json.lookup_erase_of_ne s.entries hne
  rw [← ht, ← hs, h]

theorem key_ne_of_ne (hp : Plain p) (hq : Plain q) (hne : q ≠ p) : q.key ≠ p.key := by
  rw [ne_eq, Slot.key_inj hq hp]
  exact hne

theorem filter_others (h : ∀ e, (p.key, e) ∈ s.entries → isOf user repository (p.key, e) = false) :
    (s.others p).filter (isOf user repository) = s.entries.filter (isOf user repository) :=
  Json.filter_erase h

theorem records_eq_of_others (h : t.others p = s.others p)
    (hs : ∀ e, (p.key, e) ∈ s.entries → isOf user repository (p.key, e) = false)
    (ht : ∀ e, (p.key, e) ∈ t.entries → isOf user repository (p.key, e) = false) :
    t.records user repository = s.records user repository := by
  rw [records, records, ← filter_others hs, ← filter_others ht, h]

theorem isOf_apply {op : Operation} (hne : user ≠ op.slot.user)
    (hs : ∀ e, (op.slot.key, e) ∈ s.entries → isOf user repository (op.slot.key, e) = false)
    (e : DiagramEntry) (he : (op.slot.key, e) ∈ (op.apply s).entries) :
    isOf user repository (op.slot.key, e) = false := by
  cases op with
  | upsert now q models =>
      rcases Json.mem_put he with hnew | hold
      · obtain ⟨-, rfl⟩ := Prod.mk.inj hnew
        have huser : (q.user == user) = false := beq_eq_false_iff_ne.2 fun hsame => hne hsame.symm
        rw [isOf, DiagramEntry.holds_user, recordAt, huser, Bool.false_and]
      · exact hs e hold
  | delete q =>
      simp only [Operation.apply, delete] at he
      split at he
      · exact hs e he
      · exact hs e (List.mem_of_mem_filter he)

/-- Whether a store differs from an earlier one in a slot at most. Lists of other users are the same
as well, unless an entry of theirs stood under the key of the slot. -/
structure DiffersAt (p : Slot) (s t : DiagramStore) : Prop where
  others : t.others p = s.others p
  found : Plain p → ∀ q, Plain q → q ≠ p →
    t.find? q.repository q.user = s.find? q.repository q.user
  listed : ∀ user repository, user ≠ p.user →
    (∀ e, (p.key, e) ∈ s.entries → isOf user repository (p.key, e) = false) →
      t.records user repository = s.records user repository

theorem differsAt_apply (s : DiagramStore) (op : Operation) : DiffersAt op.slot s (op.apply s) where
  others := others_apply s op
  found hp _ hq hne :=
    find?_eq_of_entryOf (entryOf_eq_of_others (others_apply s op) (key_ne_of_ne hp hq hne))
  listed _ _ hne hs := records_eq_of_others (others_apply s op) hs (isOf_apply hne hs)

theorem DiffersAt.of_entries {u : DiagramStore} (h : DiffersAt p s t) (hu : u.entries = t.entries) :
    DiffersAt p s u where
  others := by rw [DiagramStore.others, hu]; exact h.others
  found hp q hq hne := by
    rw [find?, entryAt?, hu]
    exact h.found hp q hq hne
  listed user repository hne hs := by
    rw [records, hu]
    exact h.listed user repository hne hs

end

end SchemaDiagram.DiagramStore
