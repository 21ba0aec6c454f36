import SchemaDiagram.Proofs.Store.Histories

/-!
For users without colons the store is a map from slots to diagrams: what it answers follows from
what was kept in a slot since its last deletion.
-/

namespace SchemaDiagram.DiagramStore

def uploadStep (p : Slot) (kept : List (String × List Model)) :
    Operation → List (String × List Model)
  | .upsert now q models => if q = p then kept ++ [(now, models)] else kept
  | .delete q => if q = p then [] else kept

def uploads (p : Slot) (history : List Operation) : List (String × List Model) :=
  history.foldl (uploadStep p) []

def recordOf (p : Slot) : List (String × List Model) → Option DiagramRecord
  | [] => none
  | first :: more =>
      let latest := (first :: more).getLast (List.cons_ne_nil first more)
      some
        { repository := p.repository
          user := p.user
          models := latest.2
          createdAt := first.1
          updatedAt := latest.1 }

theorem recordOf_concat (p : Slot) (kept : List (String × List Model)) (now : String)
    (models : List Model) :
    recordOf p (kept ++ [(now, models)]) =
      some
        { repository := p.repository
          user := p.user
          models
          createdAt := (kept.head?.map Prod.fst).getD now
          updatedAt := now } := by
  cases kept with
  | nil => rfl
  | cons first more => simp [recordOf]

theorem creationTime_recordOf (p : Slot) (kept : List (String × List Model)) (now : String) :
    creationTime now ((recordOf p kept).map DiagramEntry.ofRecord) =
      (kept.head?.map Prod.fst).getD now := by
  cases kept <;> rfl

theorem uploadStep_of_ne {p : Slot} {op : Operation} (h : op.slot ≠ p)
    (kept : List (String × List Model)) : uploadStep p kept op = kept := by
  cases op with
  | upsert now q models => exact if_neg h
  | delete q => exact if_neg h

theorem foldl_uploadStep_of_ne {p : Slot} {later : List Operation} (h : ∀ op ∈ later, op.slot ≠ p)
    (kept : List (String × List Model)) : later.foldl (uploadStep p) kept = kept := by
  induction later with
  | nil => rfl
  | cons op later ih =>
      rw [List.foldl_cons, uploadStep_of_ne (h op (by simp))]
      exact ih fun other hother => h other (List.mem_cons_of_mem _ hother)

def Plain (p : Slot) : Prop :=
  ':' ∉ p.user.toList

instance (p : Slot) : Decidable (Plain p) :=
  inferInstanceAs (Decidable (':' ∉ p.user.toList))

theorem entryOf_apply {s : DiagramStore} {p : Slot} (hp : Plain p) {op : Operation}
    (hop : Plain op.slot) {kept : List (String × List Model)}
    (h : s.entryOf p = (recordOf p kept).map .ofRecord) :
    (op.apply s).entryOf p = (recordOf p (uploadStep p kept op)).map .ofRecord := by
  by_cases heq : op.slot = p
  · cases op with
    | upsert now q models =>
        obtain rfl : q = p := heq
        have hcreated : creationTime now (s.entryAt? q.repository q.user) =
            (kept.head?.map Prod.fst).getD now := by
          rw [← creationTime_recordOf q, ← h]
          rfl
        have hself := entryAt?_upsert_self s now q.repository q.user models
        rw [recordAt, hcreated] at hself
        rw [uploadStep, if_pos rfl, recordOf_concat]
        exact hself
    | delete q =>
        obtain rfl : q = p := heq
        rw [uploadStep, if_pos rfl]
        exact entryAt?_delete_self s q.repository q.user
  · have hkey : p.key ≠ op.slot.key := by
      rw [ne_eq, Slot.key_inj hp hop]
      exact fun hsame => heq hsame.symm
    rw [entryOf_apply_of_ne s hkey, uploadStep_of_ne heq, h]

theorem entryOf_run {p : Slot} (hp : Plain p) {history : List Operation}
    (hplain : ∀ op ∈ history, Plain op.slot) {s : DiagramStore} {kept : List (String × List Model)}
    (h : s.entryOf p = (recordOf p kept).map .ofRecord) :
    (history.foldl Operation.apply s).entryOf p =
      (recordOf p (history.foldl (uploadStep p) kept)).map .ofRecord := by
  induction history generalizing s kept with
  | nil => exact h
  | cons op history ih =>
      exact ih (fun other hother => hplain other (List.mem_cons_of_mem _ hother))
        (entryOf_apply hp (hplain op (by simp)) h)

theorem entryOf_after {p : Slot} (hp : Plain p) {history : List Operation}
    (hplain : ∀ op ∈ history, Plain op.slot) :
    (after history).entryOf p = (recordOf p (uploads p history)).map .ofRecord :=
  entryOf_run hp hplain rfl

theorem find?_of_entryOf {s : DiagramStore} {p : Slot} {found : Option DiagramRecord}
    (h : s.entryOf p = found.map .ofRecord) : s.find? p.repository p.user = found := by
  have hentry : s.entryAt? p.repository p.user = found.map .ofRecord := h
  cases found with
  | none => rw [find?, hentry, Option.map_none]
  | some r =>
      rw [find?, hentry, Option.map_some]
      exact congrArg some (DiagramEntry.toRecord_ofRecord r _ _)

theorem find?_after {p : Slot} (hp : Plain p) {history : List Operation}
    (hplain : ∀ op ∈ history, Plain op.slot) :
    (after history).find? p.repository p.user = recordOf p (uploads p history) :=
  find?_of_entryOf (entryOf_after hp hplain)

theorem find?_after_upsert {p : Slot} (hp : Plain p) {before later : List Operation} {now : String}
    {models : List Model} (hplain : ∀ op ∈ before ++ .upsert now p models :: later, Plain op.slot)
    (hlater : ∀ op ∈ later, op.slot ≠ p) :
    (after (before ++ .upsert now p models :: later)).find? p.repository p.user =
      some ((after before).upsert now p.repository p.user models).1 := by
  have hbefore : ∀ op ∈ before ++ [.upsert now p models], Plain op.slot := by
    intro op hop
    refine hplain op ?_
    simp only [List.mem_append, List.mem_cons, List.not_mem_nil, or_false] at hop ⊢
    exact hop.imp_right .inl
  have huploads : uploads p (before ++ .upsert now p models :: later) =
      uploads p (before ++ [.upsert now p models]) := by
    rw [uploads, uploads, List.foldl_append, List.foldl_append, List.foldl_cons,
      foldl_uploadStep_of_ne hlater]
    rfl
  have hupsert := find?_upsert (after before) now p models
  have hlast : after (before ++ [.upsert now p models]) =
      ((after before).upsert now p.repository p.user models).2 := by
    rw [after, List.foldl_append]
    rfl
  rw [find?_after hp hplain, huploads, ← find?_after hp hbefore, hlast, hupsert]

theorem insertNewest_perm (r : DiagramRecord) (rs : List DiagramRecord) :
    (insertNewest r rs).Perm (r :: rs) := by
  induction rs with
  | nil => exact .refl _
  | cons q qs ih =>
      rw [insertNewest]
      split
      · exact .refl _
      · exact (ih.cons q).trans (.swap r q qs)

theorem newestFirst_perm (rs : List DiagramRecord) : (newestFirst rs).Perm rs := by
  induction rs with
  | nil => exact .refl _
  | cons r rs ih => exact (insertNewest_perm r _).trans (ih.cons r)

theorem eq_toList_of_perm {α : Type} {xs : List α} {x : Option α} (h : xs.Perm x.toList) :
    xs = x.toList := by
  cases x with
  | none => exact h.eq_nil
  | some a => exact h.eq_singleton

theorem Sound.filter_isOf {s : DiagramStore} (h : s.Sound Plain) {p : Slot} (hp : Plain p) :
    s.entries.filter (isOf p.user (some p.repository)) =
      ((s.entryOf p).map fun e => (p.key, e)).toList := by
  have hname : s.entries.filter (fun entry => entry.1 == p.key) =
      ((s.entryOf p).map fun e => (p.key, e)).toList :=
    Json.filter_name p.key h.nodup
  rw [← hname]
  refine List.filter_congr fun entry hentry => ?_
  obtain ⟨r, hr, rfl⟩ := h.keyed entry hentry
  rw [isOf_ofRecord, Bool.eq_iff_iff, beq_iff_eq, beq_iff_eq, Slot.key_inj hr hp]

theorem isOf_none (r : DiagramRecord) (p : Slot) (key : String) :
    isOf p.user none (key, .ofRecord r) = (r.user == p.user) := by
  rw [isOf, Option.all_none, Bool.and_true, DiagramEntry.holds_user]

theorem isOf_some (r : DiagramRecord) (p : Slot) (key : String) :
    isOf p.user (some p.repository) (key, .ofRecord r) =
      ((r.repository == p.repository) && isOf p.user none (key, .ofRecord r)) := by
  rw [isOf_none, isOf, Option.all_some, DiagramEntry.holds_user, DiagramEntry.holds_repository,
    Bool.and_comm]

def shown (user : String) (entry : String × DiagramEntry) : DiagramRecord :=
  entry.2.toRecord (entry.2.text "repository" "") user

theorem Sound.map_shown {s : DiagramStore} (h : s.Sound Plain) {p : Slot} (hp : Plain p)
    {found : Option DiagramRecord} (hfound : s.entryOf p = found.map .ofRecord) :
    (s.entries.filter (isOf p.user (some p.repository))).map (shown p.user) = found.toList := by
  rw [h.filter_isOf hp, hfound]
  cases found with
  | none => rfl
  | some r =>
      exact congrArg (fun shown => [shown]) (DiagramEntry.toRecord_ofRecord r _ _)

theorem Sound.records_some {s : DiagramStore} (h : s.Sound Plain) {p : Slot} (hp : Plain p)
    {found : Option DiagramRecord} (hfound : s.entryOf p = found.map .ofRecord) :
    s.records p.user (some p.repository) = found.toList := by
  change newestFirst ((s.entries.filter (isOf p.user (some p.repository))).map (shown p.user)) = _
  rw [h.map_shown hp hfound]
  exact eq_toList_of_perm (newestFirst_perm _)

theorem Sound.filter_records {s : DiagramStore} (h : s.Sound Plain) {p : Slot} (hp : Plain p)
    {found : Option DiagramRecord} (hfound : s.entryOf p = found.map .ofRecord) :
    (s.records p.user none).filter (fun r => r.repository == p.repository) = found.toList := by
  have hentries : (s.entries.filter (isOf p.user none)).filter
      ((fun r : DiagramRecord => r.repository == p.repository) ∘ shown p.user) =
        s.entries.filter (isOf p.user (some p.repository)) := by
    rw [List.filter_filter]
    refine List.filter_congr fun entry hentry => ?_
    obtain ⟨r, -, rfl⟩ := h.keyed entry hentry
    rw [isOf_some]
    rfl
  refine eq_toList_of_perm ?_
  have hperm := (newestFirst_perm ((s.entries.filter (isOf p.user none)).map (shown p.user))).filter
    fun r => r.repository == p.repository
  rw [List.filter_map, hentries, h.map_shown hp hfound] at hperm
  exact hperm

theorem refines_uploads {history : List Operation} (hplain : ∀ op ∈ history, Plain op.slot)
    {p : Slot} (hp : Plain p) :
    (after history).find? p.repository p.user = recordOf p (uploads p history) ∧
    (∀ before now models later, history = before ++ .upsert now p models :: later →
      (∀ op ∈ later, op.slot ≠ p) →
      (after history).find? p.repository p.user =
        some ((after before).upsert now p.repository p.user models).1) ∧
    ((∃ message, (after history).get p.repository p.user = .error message) ↔
      (after history).find? p.repository p.user = none) ∧
    (((after history).delete p.repository p.user).1 = true ↔
      (after history).find? p.repository p.user ≠ none) ∧
    ((after history).records p.user none).filter (fun r => r.repository == p.repository) =
      ((after history).find? p.repository p.user).toList ∧
    (after history).records p.user (some p.repository) =
      ((after history).records p.user none).filter fun r => r.repository == p.repository := by
  have hsound : (after history).Sound Plain := sound_after hplain
  have hentry := entryOf_after hp hplain
  have hfind := find?_after hp hplain
  refine ⟨hfind, ?_, ?_, ?_, ?_, ?_⟩
  · rintro before now models later rfl hlater
    exact find?_after_upsert hp hplain hlater
  · rw [get]
    cases (after history).find? p.repository p.user <;> simp
  · rw [delete_fst, hfind, show (after history).entryAt? p.repository p.user = _ from hentry]
    cases recordOf p (uploads p history) <;> simp
  · rw [hfind, hsound.filter_records hp hentry]
  · rw [hsound.records_some hp hentry, hsound.filter_records hp hentry]

def shopHistory : List Operation :=
  [.upsert "t1" ⟨"shop", "alice"⟩ [⟨"Old", "old.js", []⟩], .upsert "t2" ⟨"blog", "alice"⟩ [],
    .upsert "t3" ⟨"shop", "alice"⟩ [⟨"New", "new.js", []⟩], .delete ⟨"blog", "alice"⟩]

theorem shop_found :
    (∀ op ∈ shopHistory, Plain op.slot) ∧ Plain ⟨"shop", "alice"⟩ ∧
    (after shopHistory).find? "shop" "alice" =
      some
        { repository := "shop"
          user := "alice"
          models := [⟨"New", "new.js", []⟩]
          createdAt := "t1"
          updatedAt := "t3" } :=
  ⟨by decide, by decide, (refines_uploads (by decide) (p := ⟨"shop", "alice"⟩) (by decide)).1⟩

end SchemaDiagram.DiagramStore
