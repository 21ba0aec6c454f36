import SchemaDiagram.Proofs.Encoding.Utf8
import SchemaDiagram.Proofs.Json.Limits
import SchemaDiagram.Repository.GitHub

/-!
What becomes of the reply to a request for a listing. It is unavailable, or it lists the files and
directories of the reply in their order, unless the branch is no text, or the reply is nested too deep or
has a number or a truth value in place of the list.
-/

namespace SchemaDiagram

namespace GitHubRepository

def Replies (network : Http.Network) (r : GitHubRepository) (url : String) (cs : List Char) : Prop :=
  ∃ q, r.request? url = some q ∧ network q = .body (Utf8.encode cs)

section

variable {network : Http.Network} {r : GitHubRepository} {url : String} {cs : List Char} {v : Json}

theorem get_eq_ok_iff {bs : Bytes} :
    Http.get network url r.headers r.requestTimeout = .ok bs ↔
      ∃ q, r.request? url = some q ∧ network q = .body bs := by
  unfold Http.get GitHubRepository.request?
  cases Http.request? url r.headers r.requestTimeout with
  | none => simp
  | some q =>
      dsimp only
      cases hreply : network q <;> simp [hreply]

theorem replies_iff : Replies network r url cs ↔ ∃ bs,
    Http.get network url r.headers r.requestTimeout = .ok bs ∧ Utf8.decode bs = .ok cs := by
  constructor
  · rintro ⟨q, hq, hreply⟩
    exact ⟨_, get_eq_ok_iff.2 ⟨q, hq, hreply⟩, Utf8.decode_encode cs⟩
  · rintro ⟨bs, hget, hdecode⟩
    obtain ⟨q, hq, hreply⟩ := get_eq_ok_iff.1 hget
    exact ⟨q, hq, Utf8.decode_eq_ok_iff.1 hdecode ▸ hreply⟩

theorem document_eq_ok_iff [Platform] :
    document network r url = .ok v ↔ ∃ cs, Replies network r url cs ∧ Json.parse cs = .ok v := by
  unfold document
  constructor
  · intro h
    obtain ⟨bs, hget, h⟩ := bind_eq_ok_iff.1 h
    obtain ⟨cs, hdecode, hparse⟩ := bind_eq_ok_iff.1 h
    exact ⟨cs, replies_iff.2 ⟨bs, mapError_eq_ok_iff.1 hget, mapError_eq_ok_iff.1 hdecode⟩,
      mapError_eq_ok_iff.1 hparse⟩
  · rintro ⟨cs, hreplies, hparse⟩
    obtain ⟨bs, hget, hdecode⟩ := replies_iff.1 hreplies
    exact bind_eq_ok_iff.2 ⟨bs, mapError_eq_ok_iff.2 hget,
      bind_eq_ok_iff.2 ⟨cs, mapError_eq_ok_iff.2 hdecode, mapError_eq_ok_iff.2 hparse⟩⟩

theorem isSome_nesting?_iff {f : Fault} :
    f.nesting?.isSome ↔ ∃ problem body, f = .json problem body ∧ problem.isTooDeep = true := by
  cases f with
  | json problem body => cases hdeep : problem.isTooDeep <;> simp [Fault.nesting?, hdeep]
  | _ => simp [Fault.nesting?]

theorem exists_nesting_iff [Platform] :
    (∃ f, document network r url = .error f ∧ f.nesting?.isSome) ↔
      ∃ cs, Replies network r url cs ∧ Json.NestedTooDeep cs := by
  unfold document
  constructor
  · rintro ⟨f, hdocument, hnesting⟩
    obtain ⟨problem, body, rfl, hdeep⟩ := isSome_nesting?_iff.1 hnesting
    rcases bind_eq_error_iff.1 hdocument with hget | ⟨bs, hget, h⟩
    · obtain ⟨g, -, heq⟩ := mapError_eq_error_iff.1 hget
      simp at heq
    rcases bind_eq_error_iff.1 h with hdecode | ⟨cs, hdecode, h⟩
    · obtain ⟨g, -, heq⟩ := mapError_eq_error_iff.1 hdecode
      simp at heq
    obtain ⟨g, hparse, heq⟩ := mapError_eq_error_iff.1 h
    obtain ⟨rfl, rfl⟩ := Fault.json.inj heq
    exact ⟨cs, replies_iff.2 ⟨bs, mapError_eq_ok_iff.1 hget, mapError_eq_ok_iff.1 hdecode⟩,
      g, hparse, hdeep⟩
  · rintro ⟨cs, hreplies, f, hparse, hdeep⟩
    obtain ⟨bs, hget, hdecode⟩ := replies_iff.1 hreplies
    refine ⟨.json f cs, bind_eq_error_iff.2 (.inr ⟨bs, mapError_eq_ok_iff.2 hget, ?_⟩),
      isSome_nesting?_iff.2 ⟨f, cs, rfl, hdeep⟩⟩
    exact bind_eq_error_iff.2 (.inr ⟨cs, mapError_eq_ok_iff.2 hdecode,
      mapError_eq_error_iff.2 ⟨f, hparse, rfl⟩⟩)

end

def Payload [Platform] (network : Http.Network) (r : GitHubRepository)
    (members : List (String × Json)) : Prop :=
  ∃ cs, Replies network r r.treeUrl cs ∧ Json.parse cs = .ok (.obj members)

def Names (item : Json) (e : TreeEntry) : Prop :=
  item.get? "path" = some (.str e.path) ∧
    (item.get? "type" = some (.str "blob") ∧ e.kind = .file ∨
      item.get? "type" = some (.str "tree") ∧ e.kind = .directory)

inductive ListsOut : List Json → List TreeEntry → Prop where
  | nil : ListsOut [] []
  | named {item : Json} {e : TreeEntry} {items : List Json} {entries : List TreeEntry} :
      Names item e → ListsOut items entries → ListsOut (item :: items) (e :: entries)
  | other {item : Json} {items : List Json} {entries : List TreeEntry} :
      (∀ e, ¬ Names item e) → ListsOut items entries → ListsOut (item :: items) entries

def treeItems (members : List (String × Json)) : List Json :=
  match members.lookup "tree" with
  | some (.arr items) => items
  | _ => []

def Uncounted (members : List (String × Json)) : Prop :=
  members.lookup "tree" = some (.bool true) ∨
    (∃ n, n ≠ 0 ∧ members.lookup "tree" = some (.int n)) ∨
    ∃ x : Binary64, x.isZero = false ∧ members.lookup "tree" = some (.float x)

section

variable {network : Http.Network} {r : GitHubRepository} {item : Json} {items : List Json}
  {entries : List TreeEntry} {members : List (String × Json)}

theorem entryKind?_eq_some_iff {v : Json} {kind : EntryKind} : entryKind? v = some kind ↔
    v = .str "blob" ∧ kind = .file ∨ v = .str "tree" ∧ kind = .directory := by
  rw [entryKind?.eq_def]
  split
  · simp [eq_comm]
  · simp [eq_comm]
  · next hblob htree =>
      refine iff_of_false (by simp) ?_
      rintro (⟨hv, -⟩ | ⟨hv, -⟩)
      · exact hblob hv
      · exact htree hv

theorem bind_entryKind?_iff {kind : EntryKind} : (item.get? "type").bind entryKind? = some kind ↔
    item.get? "type" = some (.str "blob") ∧ kind = .file ∨
      item.get? "type" = some (.str "tree") ∧ kind = .directory := by
  cases item.get? "type" with
  | none => simp
  | some v => simp [entryKind?_eq_some_iff]

theorem entryOf?_eq_some_iff {e : TreeEntry} : entryOf? item = some e ↔ Names item e := by
  rw [Names, ← bind_entryKind?_iff, entryOf?]
  constructor
  · intro h
    split at h
    · next hpath hkind =>
        obtain rfl := Option.some.inj h
        exact ⟨hpath, hkind⟩
    · simp at h
  · rintro ⟨hpath, hkind⟩
    rw [hpath, hkind]

theorem listsOut_iff : ListsOut items entries ↔ items.filterMap entryOf? = entries := by
  constructor
  · intro h
    induction h with
    | nil => rfl
    | named hnames _ ih => rw [List.filterMap_cons_some (entryOf?_eq_some_iff.2 hnames), ih]
    | other hnone _ ih =>
        refine (List.filterMap_cons_none ?_).trans ih
        exact Option.eq_none_iff_forall_ne_some.2 fun e he => hnone e (entryOf?_eq_some_iff.1 he)
  · rintro rfl
    induction items with
    | nil => exact .nil
    | cons item items ih =>
        cases hentry : entryOf? item with
        | none =>
            rw [List.filterMap_cons_none hentry]
            exact .other (fun e he => by simp [entryOf?_eq_some_iff.2 he] at hentry) ih
        | some e =>
            rw [List.filterMap_cons_some hentry]
            exact .named (entryOf?_eq_some_iff.1 hentry) ih

theorem entriesOf_eq_ok_iff : entriesOf ((members.lookup "tree").getD .null) = .ok entries ↔
    ¬ Uncounted members ∧ ListsOut (treeItems members) entries := by
  rw [listsOut_iff, Uncounted, treeItems.eq_def]
  cases members.lookup "tree" with
  | none => simp [entriesOf]
  | some v =>
      cases v with
      | bool b => cases b <;> simp [entriesOf]
      | int n => by_cases hn : n = 0 <;> simp [entriesOf, hn]
      | float x => cases hx : x.isZero <;> simp [entriesOf, hx]
      | _ => simp [entriesOf]

theorem quotingFault?_eq_none_iff [Platform] {texts : List String} :
    quotingFault? texts = none ↔ ∀ s ∈ texts, Platform.isText s.toList = true := by
  simp only [quotingFault?, List.findSome?_eq_none_iff, Utf8.encodingFault?_eq_none_iff]

theorem quotingFault?_of_isText [Platform] {s : String} (h : Platform.isText s.toList = true) :
    quotingFault? [s] = none :=
  quotingFault?_eq_none_iff.2 (by simpa using h)

theorem isText_or_listing [Platform] (network : Http.Network) (r : GitHubRepository) :
    Platform.isText r.branch.toList = true ∨ ∃ reason, r.listing network = .error (.noText reason) := by
  cases hquoting : quotingFault? [r.branch] with
  | none => exact .inl (quotingFault?_eq_none_iff.1 hquoting _ List.mem_cons_self)
  | some reason =>
      refine .inr ⟨reason, ?_⟩
      unfold listing
      rw [hquoting]

theorem listing_of_payload [Platform] (hbranch : Platform.isText r.branch.toList = true)
    (h : Payload network r members) :
    r.listing network = entriesOf ((members.lookup "tree").getD .null) := by
  have hdocument : document network r r.treeUrl = .ok (.obj members) := document_eq_ok_iff.2 h
  unfold listing
  rw [quotingFault?_of_isText hbranch, hdocument]

theorem listing_of_nested [Platform] (hbranch : Platform.isText r.branch.toList = true)
    (h : ∃ cs, Replies network r r.treeUrl cs ∧ Json.NestedTooDeep cs) :
    ∃ reason, r.listing network = .error (.tooDeep reason) := by
  obtain ⟨f, hdocument, hnesting⟩ := exists_nesting_iff.2 h
  obtain ⟨reason, hreason⟩ := Option.isSome_iff_exists.1 hnesting
  unfold listing
  rw [quotingFault?_of_isText hbranch, hdocument]
  dsimp only
  rw [hreason]
  exact ⟨reason, rfl⟩

theorem listing_unavailable [Platform] (hbranch : Platform.isText r.branch.toList = true)
    (hpayload : ∀ members, ¬ Payload network r members)
    (hnested : ∀ cs, Replies network r r.treeUrl cs → ¬ Json.NestedTooDeep cs) :
    ∃ reason, r.listing network = .error (.unavailable reason) := by
  unfold listing
  rw [quotingFault?_of_isText hbranch]
  dsimp only
  split
  · next f hdocument =>
      split
      · next reason hreason =>
          obtain ⟨cs, hcs, hdeep⟩ := exists_nesting_iff.1 ⟨f, hdocument, by rw [hreason]; rfl⟩
          exact absurd hdeep (hnested cs hcs)
      · exact ⟨_, rfl⟩
  · next members hdocument => exact absurd (document_eq_ok_iff.1 hdocument) (hpayload members)
  · exact ⟨_, rfl⟩

theorem entriesOf_ne_unavailable (v : Json) (reason : String) :
    entriesOf v ≠ .error (.unavailable reason) := by
  cases v with
  | bool b => cases b <;> simp [entriesOf]
  | int n => by_cases hn : n = 0 <;> simp [entriesOf, hn]
  | float x => cases hx : x.isZero <;> simp [entriesOf, hx]
  | _ => simp [entriesOf]

theorem isText_of_unavailable [Platform] {reason : String}
    (h : r.listing network = .error (.unavailable reason)) :
    Platform.isText r.branch.toList = true := by
  refine (isText_or_listing network r).resolve_right ?_
  rintro ⟨why, hnoText⟩
  simp [h] at hnoText

theorem isText_of_listing [Platform] (h : r.listing network = .ok entries) :
    Platform.isText r.branch.toList = true := by
  refine (isText_or_listing network r).resolve_right ?_
  rintro ⟨why, hnoText⟩
  simp [h] at hnoText

theorem listing_unavailable_iff [Platform] :
    (∃ reason, r.listing network = .error (.unavailable reason)) ↔
    Platform.isText r.branch.toList = true ∧ (∀ members, ¬ Payload network r members) ∧
      ∀ cs, Replies network r r.treeUrl cs → ¬ Json.NestedTooDeep cs := by
  constructor
  · rintro ⟨reason, hlisting⟩
    have hbranch := isText_of_unavailable hlisting
    refine ⟨hbranch, fun members hpayload => ?_, fun cs hcs hdeep => ?_⟩
    · rw [listing_of_payload hbranch hpayload] at hlisting
      exact entriesOf_ne_unavailable _ reason hlisting
    · obtain ⟨why, hdeep⟩ := listing_of_nested hbranch ⟨cs, hcs, hdeep⟩
      simp [hdeep] at hlisting
  · rintro ⟨hbranch, hpayload, hnested⟩
    exact listing_unavailable hbranch hpayload hnested

theorem not_nested_of_listing [Platform] (h : r.listing network = .ok entries) :
    ∀ cs, Replies network r r.treeUrl cs → ¬ Json.NestedTooDeep cs := by
  intro cs hcs hdeep
  obtain ⟨why, hdeep⟩ := listing_of_nested (isText_of_listing h) ⟨cs, hcs, hdeep⟩
  simp [hdeep] at h

theorem listing_eq_ok_iff [Platform] : r.listing network = .ok entries ↔
    Platform.isText r.branch.toList = true ∧ ∃ members, Payload network r members ∧
      ¬ Uncounted members ∧ ListsOut (treeItems members) entries := by
  constructor
  · intro h
    have hbranch := isText_of_listing h
    have hpayload : ∃ members, Payload network r members := by
      by_contra hnone
      obtain ⟨reason, hreason⟩ :=
        listing_unavailable hbranch (not_exists.1 hnone) (not_nested_of_listing h)
      simp [hreason] at h
    obtain ⟨members, hpayload⟩ := hpayload
    rw [listing_of_payload hbranch hpayload] at h
    exact ⟨hbranch, members, hpayload, entriesOf_eq_ok_iff.1 h⟩
  · rintro ⟨hbranch, members, hpayload, hentries⟩
    rw [listing_of_payload hbranch hpayload]
    exact entriesOf_eq_ok_iff.2 hentries

theorem listing_available_iff [Platform] (network : Http.Network) (r : GitHubRepository) :
    ((∃ reason, r.listing network = .error (.unavailable reason)) ↔
      Platform.isText r.branch.toList = true ∧ (∀ members, ¬ Payload network r members) ∧
        ∀ cs, Replies network r r.treeUrl cs → ¬ Json.NestedTooDeep cs) ∧
    (∀ entries, r.listing network = .ok entries ↔
      Platform.isText r.branch.toList = true ∧ ∃ members, Payload network r members ∧
        ¬ Uncounted members ∧ ListsOut (treeItems members) entries) ∧
    ((∃ reason, r.listing network = .error (.unavailable reason)) ∨
        (∃ members entries, Payload network r members ∧ r.listing network = .ok entries ∧
          ListsOut (treeItems members) entries) ↔
      Platform.isText r.branch.toList = true ∧
        (∀ cs, Replies network r r.treeUrl cs → ¬ Json.NestedTooDeep cs) ∧
        ∀ members, Payload network r members → ¬ Uncounted members) ∧
    ∀ cs, Json.NestedTooDeep cs → Platform.jsonDepth < Json.openers cs := by
  refine ⟨listing_unavailable_iff, fun entries => listing_eq_ok_iff, ⟨?_, ?_⟩,
    fun cs => Json.NestedTooDeep.openers⟩
  · rintro (hreason | ⟨-, entries, -, hlisting, -⟩)
    · obtain ⟨hbranch, hpayload, hdeep⟩ := listing_unavailable_iff.1 hreason
      exact ⟨hbranch, hdeep, fun members h => absurd h (hpayload members)⟩
    · have hbranch := isText_of_listing hlisting
      refine ⟨hbranch, not_nested_of_listing hlisting, fun members hpayload => ?_⟩
      rw [listing_of_payload hbranch hpayload] at hlisting
      exact (entriesOf_eq_ok_iff.1 hlisting).1
  · rintro ⟨hbranch, hdeep, hcounted⟩
    -- Without an object to list from, only the nesting could keep the listing from being unavailable.
    by_cases hpayload : ∃ members, Payload network r members
    · obtain ⟨members, hpayload⟩ := hpayload
      have hout : ListsOut (treeItems members) ((treeItems members).filterMap entryOf?) :=
        listsOut_iff.2 rfl
      have hlisting : r.listing network = .ok ((treeItems members).filterMap entryOf?) :=
        listing_eq_ok_iff.2 ⟨hbranch, members, hpayload, hcounted members hpayload, hout⟩
      exact .inr ⟨members, _, hpayload, hlisting, hout⟩
    · exact .inl (listing_unavailable_iff.2 ⟨hbranch, not_exists.1 hpayload, hdeep⟩)

end

def repeating (cs : List Char) : Http.Network :=
  fun _ => .body (Utf8.encode cs)

theorem numbered_tree_escapes :
    listing (repeating "\x7b\"tree\": 5\x7d".toList) { owner := "acme", name := "shop" } =
      .error (.noList "int") := by
  decide +kernel

end GitHubRepository

end SchemaDiagram
