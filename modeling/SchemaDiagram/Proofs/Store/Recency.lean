import SchemaDiagram.Proofs.Store.Answers
import SchemaDiagram.Proofs.Timestamp.Texts

/-!
The order of a user's diagrams, after any diagrams were kept at known instants, each one later than
the one before. Lists are in the order of the texts of these instants.
-/

namespace SchemaDiagram.DiagramStore

structure Upload where
  instant : Timestamp
  slot : Slot
  models : List Model

def Upload.operation (u : Upload) : Operation :=
  .upsert u.instant.text u.slot u.models

def afterUploads (history : List Upload) : DiagramStore :=
  after (history.map Upload.operation)

def lastKept? (history : List Upload) (p : Slot) : Option Timestamp :=
  (history.reverse.find? fun u => u.slot = p).map Upload.instant

theorem lastKept?_concat_self (history : List Upload) (u : Upload) :
    lastKept? (history ++ [u]) u.slot = some u.instant := by
  simp [lastKept?]

theorem lastKept?_concat_of_ne {u : Upload} {p : Slot} (h : u.slot ≠ p) (history : List Upload) :
    lastKept? (history ++ [u]) p = lastKept? history p := by
  simp [lastKept?, h]

theorem exists_upload {history : List Upload} {p : Slot} {t : Timestamp}
    (h : lastKept? history p = some t) : ∃ u ∈ history, u.slot = p ∧ u.instant = t := by
  obtain ⟨u, hfind, rfl⟩ := Option.map_eq_some_iff.1 h
  have hslot := List.find?_some hfind
  exact ⟨u, List.mem_reverse.1 (List.mem_of_find?_eq_some hfind), by simpa using hslot, rfl⟩

def Dated (history : List Upload) (s : DiagramStore) : Prop :=
  ∀ entry ∈ s.entries, ∃ (r : DiagramRecord) (t : Timestamp),
    entry = (r.slot.key, .ofRecord r) ∧ lastKept? history r.slot = some t ∧ r.updatedAt = t.text

theorem Dated.apply {history : List Upload} {s : DiagramStore} (h : Dated history s)
    (hnodup : (s.entries.map Prod.fst).Nodup) (u : Upload) :
    Dated (history ++ [u]) (u.operation.apply s) := by
  intro entry hentry
  rcases Json.mem_put_of_nodup hnodup hentry with rfl | ⟨hkey, hold⟩
  · exact ⟨s.recordAt u.instant.text u.slot.repository u.slot.user u.models, u.instant, rfl,
      lastKept?_concat_self history u, rfl⟩
  · obtain ⟨r, t, rfl, hlast, htext⟩ := h entry hold
    refine ⟨r, t, rfl, ?_, htext⟩
    rw [lastKept?_concat_of_ne ?_ history, hlast]
    intro hslot
    exact hkey (congrArg Slot.key hslot).symm

theorem afterUploads_concat (history : List Upload) (u : Upload) :
    afterUploads (history ++ [u]) = u.operation.apply (afterUploads history) := by
  rw [afterUploads, List.map_append, after, List.foldl_append]
  rfl

theorem nodup_afterUploads (history : List Upload) :
    ((afterUploads history).entries.map Prod.fst).Nodup := by
  have hsound : (afterUploads history).Sound fun _ => True := sound_after fun _ _ => trivial
  exact hsound.nodup

theorem dated_afterUploads (history : List Upload) : Dated history (afterUploads history) := by
  induction history using List.reverseRecOn with
  | nil =>
      intro entry hentry
      exact absurd hentry List.not_mem_nil
  | append_singleton history u ih =>
      rw [afterUploads_concat]
      exact ih.apply (nodup_afterUploads history) u

section

variable {history : List Upload} {user : String} {repository : Option String}

theorem shown_of_dated {s : DiagramStore} (h : Dated history s) {entry : String × DiagramEntry}
    (hentry : entry ∈ s.entries) (user : String) :
    (shown user entry).slot.key = entry.1 ∧
    ∃ t, lastKept? history (shown user entry).slot = some t ∧
      (shown user entry).updatedAt = t.text := by
  obtain ⟨r, t, rfl, hlast, htext⟩ := h entry hentry
  have hshown : shown user (r.slot.key, .ofRecord r) = r := DiagramEntry.toRecord_ofRecord r _ _
  rw [hshown]
  exact ⟨rfl, t, hlast, htext⟩

theorem lastKept?_of_mem_records {r : DiagramRecord}
    (h : r ∈ (afterUploads history).records user repository) :
    ∃ t, lastKept? history r.slot = some t ∧ r.updatedAt = t.text := by
  obtain ⟨entry, hentry, rfl⟩ := List.mem_map.1 ((records_perm _ user repository).mem_iff.1 h)
  exact (shown_of_dated (dated_afterUploads history) (List.mem_of_mem_filter hentry) user).2

theorem nodup_slots (history : List Upload) (user : String) (repository : Option String) :
    (((afterUploads history).records user repository).map DiagramRecord.slot).Nodup := by
  refine .of_map Slot.key ?_
  have hperm := ((records_perm (afterUploads history) user repository).map
    DiagramRecord.slot).map Slot.key
  rw [hperm.nodup_iff, List.map_map, List.map_map, Function.comp_assoc]
  have hkeys : ((afterUploads history).entries.filter (isOf user repository)).map
      (Slot.key ∘ DiagramRecord.slot ∘ shown user) =
        ((afterUploads history).entries.filter (isOf user repository)).map Prod.fst :=
    List.map_congr_left fun entry hentry =>
      (shown_of_dated (dated_afterUploads history) (List.mem_of_mem_filter hentry) user).1
  rw [hkeys]
  exact (nodup_afterUploads history).sublist (List.filter_sublist.map Prod.fst)

def Clocked (history : List Upload) : Prop :=
  (∀ u ∈ history, u.instant.InCalendar) ∧ history.Pairwise fun u v => u.instant.Before v.instant

theorem before_ne {t u : Timestamp} (h : t.Before u) : t ≠ u := by
  rintro rfl
  exact Int.lt_irrefl _ h

theorem Clocked.inCalendar (h : Clocked history) {p : Slot} {t : Timestamp}
    (ht : lastKept? history p = some t) : t.InCalendar := by
  obtain ⟨u, hu, -, rfl⟩ := exists_upload ht
  exact h.1 u hu

theorem Clocked.slot_eq (h : Clocked history) {p q : Slot} {t : Timestamp}
    (hp : lastKept? history p = some t) (hq : lastKept? history q = some t) : p = q := by
  obtain ⟨u, hu, rfl, rfl⟩ := exists_upload hp
  obtain ⟨v, hv, rfl, hsame⟩ := exists_upload hq
  have hinstants : (history.map Upload.instant).Nodup :=
    List.pairwise_map.2 (h.2.imp fun hbefore => before_ne hbefore)
  exact congrArg _ (List.inj_on_of_nodup_map hinstants hu hv hsame.symm)

def KeptBefore (history : List Upload) (p q : Slot) : Prop :=
  ∃ t ∈ lastKept? history p, ∃ u ∈ lastKept? history q, t.Before u

/-- Whether a slot was last kept on a whole second, and another one later within that second. -/
def Overtaken (history : List Upload) (p q : Slot) : Prop :=
  ∃ t ∈ lastKept? history p, ∃ u ∈ lastKept? history q, t.Overtakes u

instance (p q : Slot) : Decidable (KeptBefore history p q) :=
  inferInstanceAs (Decidable (∃ _ ∈ lastKept? history p, _))

instance (p q : Slot) : Decidable (Overtaken history p q) :=
  inferInstanceAs (Decidable (∃ _ ∈ lastKept? history p, _))

theorem KeptBefore.not_before {p q : Slot} (h : KeptBefore history q p) {t u : Timestamp}
    (ht : t ∈ lastKept? history p) (hu : u ∈ lastKept? history q) : ¬ t.Before u := by
  obtain ⟨u', hu', t', ht', hbefore⟩ := h
  obtain rfl := Option.mem_unique hu hu'
  obtain rfl := Option.mem_unique ht ht'
  exact Int.lt_asymm hbefore

theorem updatedAt_of_mem_records {r : DiagramRecord}
    (h : r ∈ (afterUploads history).records user repository) {t : Timestamp}
    (ht : t ∈ lastKept? history r.slot) : r.updatedAt = t.text := by
  obtain ⟨t', ht', htext⟩ := lastKept?_of_mem_records h
  obtain rfl := Option.mem_unique ht ht'
  exact htext

theorem related_of_pairwise {α : Type} {R : α → α → Prop} {xs : List α} (h : xs.Pairwise R)
    {x y : α} (hx : x ∈ xs) (hy : y ∈ xs) (hne : x ≠ y) : R x y ∨ R y x := by
  have hsymm : Std.Symm fun a b => R a b ∨ R b a := ⟨fun _ _ => Or.symm⟩
  exact (h.imp (S := fun a b => R a b ∨ R b a) Or.inl).forall hx hy hne

theorem records_latest_iff (h : Clocked history) (user : String) (repository : Option String) :
    (((afterUploads history).records user repository).Pairwise fun r s =>
      KeptBefore history s.slot r.slot) ↔
      ∀ r ∈ (afterUploads history).records user repository,
        ∀ s ∈ (afterUploads history).records user repository,
          ¬ Overtaken history r.slot s.slot := by
  have htexts : ((afterUploads history).records user repository).Pairwise fun r s =>
      s.updatedAt ≤ r.updatedAt := newestFirst_newest _
  constructor
  · rintro hlatest r hr s hs ⟨t, ht, u, hu, hovertakes⟩
    have hbefore : t.Before u := hovertakes.2.1
    have hne : r ≠ s := by
      rintro rfl
      exact before_ne hbefore (Option.some.inj (Option.mem_def.1 ht ▸ hu))
    rcases related_of_pairwise (htexts.and hlatest) hr hs hne with ⟨-, hkept⟩ | ⟨hle, -⟩
    · exact hkept.not_before ht hu hbefore
    · have hlt := Timestamp.text_lt_text_of_overtakes hovertakes
      rw [← updatedAt_of_mem_records hr ht, ← updatedAt_of_mem_records hs hu] at hlt
      exact absurd hle (not_le.2 hlt)
  · intro hnone
    have hslots := List.pairwise_map.1 (nodup_slots history user repository)
    refine (htexts.and hslots).imp_of_mem fun {r s} hr hs hrs => ?_
    obtain ⟨hle, hne⟩ := hrs
    obtain ⟨t, ht, hrtext⟩ := lastKept?_of_mem_records hr
    obtain ⟨u, hu, hstext⟩ := lastKept?_of_mem_records hs
    refine ⟨u, hu, t, ht, ?_⟩
    rcases Int.lt_trichotomy u.microseconds t.microseconds with hlater | hsame | hearlier
    · exact hlater
    · obtain rfl : u = t := congrArg Timestamp.mk hsame
      exact absurd (h.slot_eq ht hu) hne
    · have hlt := Timestamp.text_lt_text (h.inCalendar ht) (h.inCalendar hu) hearlier fun hover =>
        hnone r hr s hs ⟨t, ht, u, hu, hover⟩
      rw [← hrtext, ← hstext] at hlt
      exact absurd hle (not_le.2 hlt)

end

def busySecond : List Upload :=
  [⟨⟨1704067200000000⟩, ⟨"shop", "alice"⟩, []⟩, ⟨⟨1704067200250000⟩, ⟨"blog", "alice"⟩, []⟩,
    ⟨⟨1704067200500000⟩, ⟨"shop", "alice"⟩, []⟩]

theorem busySecond_latest :
    Clocked busySecond ∧
    ((afterUploads busySecond).records "alice" none).map DiagramRecord.slot =
      [⟨"shop", "alice"⟩, ⟨"blog", "alice"⟩] ∧
    ((afterUploads busySecond).records "alice" none).Pairwise fun r s =>
      KeptBefore busySecond s.slot r.slot := by
  have hclocked : Clocked busySecond := ⟨by decide, by decide⟩
  refine ⟨hclocked, by decide +kernel, (records_latest_iff hclocked "alice" none).2 ?_⟩
  decide +kernel

def newYear : List Upload :=
  [⟨⟨1704067200000000⟩, ⟨"shop", "alice"⟩, []⟩, ⟨⟨1704067200500000⟩, ⟨"blog", "alice"⟩, []⟩]

theorem newYear_earlier_first :
    Clocked newYear ∧
    ((afterUploads newYear).records "alice" none).map (fun r => (r.repository, r.updatedAt)) =
      [("shop", "2024-01-01T00:00:00Z"), ("blog", "2024-01-01T00:00:00.500000Z")] ∧
    ¬ ((afterUploads newYear).records "alice" none).Pairwise fun r s =>
      KeptBefore newYear s.slot r.slot :=
  ⟨⟨by decide, by decide⟩, by decide +kernel, by decide +kernel⟩

end SchemaDiagram.DiagramStore
