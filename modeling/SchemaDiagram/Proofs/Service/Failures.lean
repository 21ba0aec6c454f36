import SchemaDiagram.Proofs.Service.Effects
import SchemaDiagram.Proofs.Store.Isolation

/-!
Requests that end in an error. None of them changes anything, but for one whose change cannot be
written and one whose reply cannot be sent: that change stays, and nothing else does.
-/

namespace SchemaDiagram

namespace Service

section

variable [Platform]

/-- Whether a request was answered with an error as its change could not be written, and left behind
exactly that change. -/
structure LeavesUnwritten (st : State) (r : Request) (op : Operation) : Prop where
  asked : Asks st r op
  refused : ∃ f tree, write st op = .error (f, tree) ∧
    (handle st r).1.status = (Reply.ofStoreFault f).status
  changed : (handle st r).2.1.store = op.apply st.store
  unsaved : (handle st r).2.1.store.unsaved = true
  rest : DiagramStore.DiffersAt op.slot st.store (handle st r).2.1.store

/-- Whether models were kept for a request and written, but the reply that shows them is no text, so
that the request was answered with an error. -/
structure LeavesUnsaid (st : State) (r : Request) (op : Operation) : Prop where
  asked : Asks st r op
  shown : ∃ now p models, op = .upsert now p models ∧ (answer st r).1.Shows models
  unsent : (answer st r).1.isText = false ∧ (handle st r).1.status = 400
  written : ∃ tree, write st op = .ok ((handle st r).2.1.store, tree)
  entries : (handle st r).2.1.store.entries = (op.apply st.store).entries
  rest : DiagramStore.DiffersAt op.slot st.store (handle st r).2.1.store

variable {st : State} {r : Request} {op : Operation}

theorem Retains.leavesUnwritten {f : DiagramStore.Fault} {tree : FileTree}
    (h : Retains st r op f tree) : LeavesUnwritten st r op := by
  have hstore : (handle st r).2.1.store = op.apply st.store := by rw [h.state]
  refine ⟨h.asked, ⟨f, tree, h.unwritten, h.status⟩, hstore, ?_, ?_⟩
  · rw [hstore]
    exact DiagramStore.unsaved_of_persist_error h.unwritten
  · rw [hstore]
    exact DiagramStore.differsAt_apply st.store op

theorem Writes.leavesUnsaid {store : DiagramStore} {tree : FileTree}
    (h : Writes st r op store tree) (hfail : 400 ≤ (handle st r).1.status) :
    LeavesUnsaid st r op := by
  have hstatus := h.status
  have hunsent : (answer st r).1.isText = false := by
    refine Bool.eq_false_iff.2 fun htext => ?_
    rw [if_pos htext] at hstatus
    omega
  have hstore : (handle st r).2.1.store = store := by rw [h.state]
  refine ⟨h.asked, ?_, ⟨hunsent, by rw [hstatus, if_neg (by simp [hunsent])]⟩,
    ⟨tree, hstore ▸ h.written⟩, h.entries,
    (DiagramStore.differsAt_apply st.store op).of_entries h.entries⟩
  cases op with
  | upsert now p models => exact ⟨now, p, models, rfl, shows_of_written h.asked h.written⟩
  | delete p => simp [isText_of_deleted h.asked h.written] at hunsent

theorem failure_unchanged (hfail : 400 ≤ (handle st r).1.status) :
    (∀ op, ¬ Asks st r op) ∧ (handle st r).2.1 = st ∨
    (∃ op, LeavesUnwritten st r op) ∨ ∃ op, LeavesUnsaid st r op := by
  rcases handle_cases st r with hunasked | ⟨op, store, tree, hwrites⟩ | ⟨op, f, tree, hretains⟩
  · exact .inl hunasked
  · exact .inr (.inr ⟨op, hwrites.leavesUnsaid hfail⟩)
  · exact .inr (.inl ⟨op, hretains.leavesUnwritten⟩)

end

def blockedTree : FileTree :=
  .insert (.directory []) ["store.json"] (shopTree "shop" "user.js")

def blocked : State :=
  opened blockedTree { path := some (Path.ofText "/store.json") }

def stocked : State :=
  let upload : Operation := .upsert "2024-01-01T00:00:00Z" ⟨"/shop", "ann"⟩ []
  { blocked with store := { upload.apply blocked.store with unsaved := false } }

def deleteShop : Request :=
  { method := .delete, path := "/diagrams//shop", query := [("user", "ann")] }

theorem asks_deleteShop : Asks stocked deleteShop (.delete ⟨"/shop", "ann"⟩) := by
  have htarget : Target.ofRequest deleteShop.method deleteShop.path.toList =
      .resource (.diagram "/shop") := by decide
  exact .delete htarget rfl (by decide +kernel)

theorem stocked_delete_unwritten :
    (stocked.store.find? "/shop" "ann").isSome ∧ stocked.store.unsaved = false ∧
    400 ≤ (handle stocked deleteShop).1.status ∧ ∃ op, LeavesUnwritten stocked deleteShop op := by
  have hstatus : (handle stocked deleteShop).1.status = 500 := by decide +kernel
  have hfail : 400 ≤ (handle stocked deleteShop).1.status := by omega
  refine ⟨by decide +kernel, rfl, hfail, ?_⟩
  rcases failure_unchanged hfail with ⟨hunasked, -⟩ | hunwritten | ⟨op, hunsaid⟩
  · exact absurd asks_deleteShop (hunasked _)
  · exact hunwritten
  · have hsent := hunsaid.unsent.2
    omega

theorem failed_changes_stay :
    (DiagramStore.load blocked.surroundings.tree blocked.surroundings.standing
        (Path.ofText "/store.json") = .ok blocked.store ∧
      (handle blocked (wishFor "/shop")).1.status = 500 ∧
      (blocked.store.find? "/shop" "ann").isNone ∧ (blocked.store.records "ann" none).length = 0 ∧
      ((handle blocked (wishFor "/shop")).2.1.store.find? "/shop" "ann").isSome ∧
      ((handle blocked (wishFor "/shop")).2.1.store.records "ann" none).length = 1) ∧
    ((handle stocked deleteShop).1.status = 500 ∧ (stocked.store.find? "/shop" "ann").isSome ∧
      ((handle stocked deleteShop).2.1.store.find? "/shop" "ann").isNone) ∧
    (handle (opened strayTree {}) (wishFor "/shop")).1.status = 400 ∧
      ((handle (opened strayTree {}) (wishFor "/shop")).2.1.store.find? "/shop" "ann").isSome := by
  refine ⟨⟨rfl, ?_⟩, ?_, ?_⟩
  · decide +kernel
  · decide +kernel
  · decide +kernel

end Service

end SchemaDiagram
