import SchemaDiagram.Proofs.Encoding.Utf8
import SchemaDiagram.Proofs.Json.Limits
import SchemaDiagram.Proofs.Store.Sessions

/-!
Which files a store can be opened on. Bytes that are no text, and JSON past a limit, are not passed
over; of every other file the store holds the objects with models in its table, or nothing if it has no
table.
-/

namespace SchemaDiagram.DiagramStore

open SchemaDiagram.Text

inductive IsOne : Json → Prop where
  | int : IsOne (.int 1)
  | float {x : Binary64} : x.toInt? = some 1 → IsOne (.float x)
  | bool : IsOne (.bool true)

structure HasTable (v : Json) (table : List (String × Json)) : Prop where
  version : ∃ n, v.get? "version" = some n ∧ IsOne n
  entries : v.get? "entries" = some (.obj table)

def hasModels : Json → Bool
  | .obj members => (members.lookup "models").isSome
  | _ => false

inductive Holds [Platform] (cs : List Char) : Entries → Prop where
  | table {v : Json} {table : List (String × Json)} {entries : Entries} :
      Json.parse cs = .ok v → HasTable v table →
        entries.map (fun entry => (entry.1, .obj entry.2)) = table.filter (fun m => hasModels m.2) →
          Holds cs entries
  | nothing : (∀ v table, Json.parse cs = .ok v → ¬ HasTable v table) → Holds cs []

section

variable {v : Json} {table : List (String × Json)}

theorem isVersion_iff : isVersion v = true ↔ IsOne v := by
  constructor
  · intro h
    cases v with
    | int n =>
        obtain rfl : n = 1 := of_decide_eq_true h
        exact .int
    | float x => exact .float (of_decide_eq_true h)
    | bool b =>
        obtain rfl : b = true := h
        exact .bool
    | _ => simp [isVersion] at h
  · rintro (_ | hx | _)
    · rfl
    · exact decide_eq_true hx
    · rfl

theorem entriesOf_of_hasTable (h : HasTable v table) :
    entriesOf v = table.filterMap fun (k, e) => (entryOf? e).map fun e => (k, e) := by
  obtain ⟨n, hn, hone⟩ := h.version
  rw [entriesOf, hn, h.entries]
  exact if_pos (isVersion_iff.2 hone)

theorem entriesOf_eq_nil (h : ∀ table, ¬ HasTable v table) : entriesOf v = [] := by
  rw [entriesOf]
  split
  · next n members hn hentries =>
      split
      · next hversion => exact absurd ⟨⟨n, hn, isVersion_iff.1 hversion⟩, hentries⟩ (h members)
      · rfl
  · rfl

theorem entryOf?_of_hasModels (h : hasModels v = true) : ∃ e, v = .obj e ∧ entryOf? v = some e := by
  cases v with
  | obj members => exact ⟨members, rfl, if_pos h⟩
  | _ => simp [hasModels] at h

theorem entryOf?_eq_none (h : hasModels v = false) : entryOf? v = none := by
  cases v with
  | obj members => exact if_neg (Bool.eq_false_iff.1 h)
  | _ => rfl

theorem map_filterMap_entryOf? (table : List (String × Json)) :
    (table.filterMap fun (k, e) => (entryOf? e).map fun e => (k, e)).map
      (fun entry => (entry.1, Json.obj entry.2)) = table.filter fun m => hasModels m.2 := by
  induction table with
  | nil => rfl
  | cons first rest ih =>
      obtain ⟨k, v⟩ := first
      rw [List.filterMap_cons, List.filter_cons, ← ih]
      dsimp only
      cases hmodels : hasModels v with
      | false =>
          rw [entryOf?_eq_none hmodels]
          rfl
      | true =>
          obtain ⟨e, rfl, hentry⟩ := entryOf?_of_hasModels hmodels
          rw [hentry]
          rfl

end

def Says (bs : Bytes) (cs : List Char) : Prop :=
  ∃ text, bs = Utf8.encode text ∧ cs = plainNewlines text

section

variable {cs : List Char} {bs : Bytes} {entries : Entries}

theorem exists_entriesOfText_iff [Platform] :
    (∃ entries, entriesOfText cs = .ok entries) ↔ ¬ Json.PastLimit cs := by
  rw [entriesOfText, Json.PastLimit]
  split
  · next hparse => simp [hparse]
  · next f hparse => cases hsyntax : f.isSyntax <;> simp [hparse, hsyntax]

theorem holds_of_entriesOfText [Platform] (h : entriesOfText cs = .ok entries) : Holds cs entries := by
  rw [entriesOfText] at h
  split at h
  · next v hparse =>
      obtain rfl := Except.ok.inj h
      by_cases htable : ∃ table, HasTable v table
      · obtain ⟨table, htable⟩ := htable
        refine .table hparse htable ?_
        rw [entriesOf_of_hasTable htable, map_filterMap_entryOf?]
      · have hnone := not_exists.1 htable
        rw [entriesOf_eq_nil hnone]
        refine .nothing fun w table hw => ?_
        obtain rfl := Except.ok.inj (hparse.symm.trans hw)
        exact hnone table
  · next f hparse =>
      split at h
      · obtain rfl := Except.ok.inj h
        exact .nothing fun w table hw => by simp [hparse] at hw
      · simp at h

theorem entriesOfBytes_eq_ok_iff [Platform] :
    entriesOfBytes bs = .ok entries ↔ ∃ cs, Says bs cs ∧ entriesOfText cs = .ok entries := by
  rw [entriesOfBytes]
  constructor
  · intro h
    split at h
    · simp at h
    · next text htext => exact ⟨_, ⟨text, Utf8.decode_eq_ok_iff.1 htext, rfl⟩, h⟩
  · rintro ⟨_, ⟨text, rfl, rfl⟩, h⟩
    rw [Utf8.decode_encode]
    exact h

end

theorem opens_iff [Platform] {tree : FileTree} {standing : Place} {path : Path} {bs : Bytes}
    (h : tree.contentAt standing path = .ok bs) :
    ((∃ s, load tree standing path = .ok s) ↔ ∃ cs, Says bs cs ∧ ¬ Json.PastLimit cs) ∧
    (∀ s, load tree standing path = .ok s →
      s.path = some path ∧ s.unsaved = false ∧ ∃ cs, Says bs cs ∧ Holds cs s.entries) ∧
    ∀ cs, Json.PastLimit cs → Json.HasLongRun cs ∨ Platform.jsonDepth < Json.openers cs := by
  have hload : ∀ s, load tree standing path = .ok s ↔
      ∃ entries, entriesOfBytes bs = .ok entries ∧ { path := some path, entries } = s := by
    intro s
    rw [load, h]
    exact map_eq_ok_iff
  refine ⟨⟨?_, ?_⟩, fun s hs => ?_, fun cs => Json.PastLimit.cases⟩
  · rintro ⟨s, hs⟩
    obtain ⟨entries, hentries, -⟩ := (hload s).1 hs
    obtain ⟨cs, hsays, htext⟩ := entriesOfBytes_eq_ok_iff.1 hentries
    exact ⟨cs, hsays, exists_entriesOfText_iff.1 ⟨entries, htext⟩⟩
  · rintro ⟨cs, hsays, hlimit⟩
    obtain ⟨entries, htext⟩ := exists_entriesOfText_iff.2 hlimit
    exact ⟨_, (hload _).2 ⟨entries, entriesOfBytes_eq_ok_iff.2 ⟨cs, hsays, htext⟩, rfl⟩⟩
  · obtain ⟨entries, hentries, rfl⟩ := (hload s).1 hs
    obtain ⟨cs, hsays, htext⟩ := entriesOfBytes_eq_ok_iff.1 hentries
    exact ⟨rfl, rfl, cs, hsays, holds_of_entriesOfText htext⟩

def shelfTree (content : Bytes) : FileTree :=
  .directory [("kept", .directory [("diagrams.json", .file content)])]

theorem contentAt_shelfTree (content : Bytes) :
    (shelfTree content).contentAt [] shelf = .ok content :=
  rfl

def mixedText : List Char :=
  ("\x7b\"version\": 1.0,\r\n \"entries\": \x7b\"u::r\": \x7b\"models\": null\x7d, " ++
    "\"u::s\": \x7b\x7d, \"u::t\": [\"models\"]\x7d\x7d\n").toList

theorem mixed_opens :
    (shelfTree (Utf8.encode mixedText)).contentAt [] shelf = .ok (Utf8.encode mixedText) ∧
    ∃ s, load (shelfTree (Utf8.encode mixedText)) [] shelf = .ok s ∧ s.path = some shelf ∧
      s.unsaved = false ∧ ∃ cs, Says (Utf8.encode mixedText) cs ∧ Holds cs s.entries := by
  have hread : (Json.parse (plainNewlines mixedText)).isOk = true := by decide +kernel
  have hlimit : ¬ Json.PastLimit (plainNewlines mixedText) := by
    rintro ⟨f, hparse, -⟩
    simp [hparse, Except.isOk, Except.toBool] at hread
  obtain ⟨hopens, hholds, -⟩ := opens_iff (contentAt_shelfTree (Utf8.encode mixedText))
  obtain ⟨s, hs⟩ := hopens.2 ⟨_, ⟨mixedText, rfl, rfl⟩, hlimit⟩
  exact ⟨contentAt_shelfTree _, s, hs, hholds s hs⟩

theorem stray_byte_refused :
    (shelfTree [0xFF]).contentAt [] shelf = .ok [0xFF] ∧
    ∀ s, load (shelfTree [0xFF]) [] shelf ≠ .ok s := by
  have hrefused : (load (shelfTree [0xFF]) [] shelf).isOk = false := by decide +kernel
  refine ⟨contentAt_shelfTree _, fun s hs => ?_⟩
  simp [hs, Except.isOk, Except.toBool] at hrefused

end SchemaDiagram.DiagramStore
