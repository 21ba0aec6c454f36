import SchemaDiagram.Proofs.Encoding.LineBreaks
import SchemaDiagram.Proofs.Repository.Replies

/-!
What a file reads as. A document that holds a text in base 64 reads as that text and any other one as
empty, but for contents outside of ASCII, which do not read as anything. Neither does a path that is no
text, or a file of a branch that is none.
-/

namespace SchemaDiagram

namespace GitHubRepository

def HoldsContent (v : Json) (content : String) : Prop :=
  v.get? "encoding" = some (.str "base64") ∧ v.get? "content" = some (.str content)

def Decodes (v : Json) (text : String) : Prop :=
  ∃ content, HoldsContent v content ∧
    Base64.decode content.toList = .ok (Utf8.encode text.toList)

def Plain (v : Json) : Prop :=
  ∀ content, HoldsContent v content → ∀ c ∈ content.toList, c.toNat < 0x80

section

variable {v : Json} {content text : String}

theorem HoldsContent.unique {other : String} (h : HoldsContent v content)
    (hother : HoldsContent v other) : other = content :=
  Json.str.inj (Option.some.inj (hother.2.symm.trans h.2))

theorem plain_iff (h : HoldsContent v content) :
    Plain v ↔ Base64.decode content.toList ≠ .error .notAscii := by
  rw [Ne, Base64.decode_eq_notAscii_iff]
  constructor
  · rintro hplain ⟨c, hc, hbeyond⟩
    exact absurd (hplain content h c hc) (Nat.not_lt.2 hbeyond)
  · rintro hnone other hother c hc
    obtain rfl := h.unique hother
    exact Nat.lt_of_not_le fun hbeyond => hnone ⟨c, hc, hbeyond⟩

theorem decodes_iff (h : HoldsContent v content) :
    Decodes v text ↔ Base64.decode content.toList = .ok (Utf8.encode text.toList) := by
  constructor
  · rintro ⟨other, hother, hdecode⟩
    obtain rfl := h.unique hother
    exact hdecode
  · exact fun hdecode => ⟨content, h, hdecode⟩

theorem decodeContent_of_none (h : ∀ content, ¬ HoldsContent v content) :
    decodeContent v = .ok "" := by
  unfold decodeContent
  split
  · next content hencoding hcontent => exact absurd ⟨hencoding, hcontent⟩ (h content)
  · rfl

theorem encode_eq_encode_toList {cs : List Char} :
    Utf8.encode cs = Utf8.encode text.toList ↔ String.ofList cs = text := by
  constructor
  · intro h
    have hdecode := Utf8.decode_encode text.toList
    rw [← h, Utf8.decode_encode] at hdecode
    rw [Except.ok.inj hdecode, String.ofList_toList]
  · rintro rfl
    rw [String.toList_ofList]

theorem decodeContent_eq_ok_iff : decodeContent v = .ok text ↔
    Plain v ∧ (Decodes v text ∨ text = "" ∧ ∀ other, ¬ Decodes v other) := by
  by_cases hholds : ∃ content, HoldsContent v content
  · obtain ⟨content, hholds⟩ := hholds
    -- The content is the only one, so that what it decodes to settles both sides.
    simp only [plain_iff hholds, decodes_iff hholds]
    unfold decodeContent
    simp only [hholds.1, hholds.2]
    cases hcontent : Base64.decode content.toList with
    | error f => cases f <;> simp [eq_comm]
    | ok bs =>
        dsimp only
        cases hbytes : Utf8.decode bs with
        | ok cs =>
            obtain rfl := Utf8.decode_eq_ok_iff.1 hbytes
            simp [encode_eq_encode_toList]
        | error f =>
            have hno : ∀ other : String, bs ≠ Utf8.encode other.toList := by
              rintro other rfl
              simp [Utf8.decode_encode] at hbytes
            simp [hno, eq_comm]
  · have hnone := not_exists.1 hholds
    have hplain : Plain v := fun content h => absurd h (hnone content)
    have hno : ∀ other, ¬ Decodes v other := fun other ⟨content, h, _⟩ => hnone content h
    simp [decodeContent_of_none hnone, hplain, hno, eq_comm]

theorem decodeContent_of_spells (h : HoldsContent v content)
    (hspells : Base64.Spells content.toList (Utf8.encode text.toList)) :
    decodeContent v = .ok text := by
  refine decodeContent_eq_ok_iff.2 ⟨?_, .inl ⟨content, h, Base64.decode_of_spells hspells⟩⟩
  rintro other hother
  obtain rfl := h.unique hother
  exact hspells.1

theorem exists_decodeContent_iff : (∃ text, decodeContent v = .ok text) ↔ Plain v := by
  simp only [decodeContent_eq_ok_iff, exists_and_left, and_iff_left_iff_imp]
  intro _
  by_cases hdecodes : ∃ text, Decodes v text
  · obtain ⟨text, hdecodes⟩ := hdecodes
    exact ⟨text, .inl hdecodes⟩
  · exact ⟨"", .inr ⟨rfl, not_exists.1 hdecodes⟩⟩

theorem decodeContent_of_lineBroken
    (h : LineBroken (Base64.encode (Utf8.encode text.toList)) content.toList) :
    decodeContent (.obj [("encoding", .str "base64"), ("content", .str content)]) = .ok text := by
  have hholds : HoldsContent (.obj [("encoding", .str "base64"), ("content", .str content)]) content :=
    ⟨rfl, rfl⟩
  exact decodeContent_of_spells hholds (Base64.spells_of_lineBroken h)

theorem brokenLines_read :
    LineBroken (Base64.encode (Utf8.encode "aé€😀".toList)) "\nYc\nOp4\n\noKs8J+YgA=\n=\n".toList ∧
    decodeContent (.obj [("encoding", .str "base64"),
      ("content", .str "\nYc\nOp4\n\noKs8J+YgA=\n=\n")]) = .ok "aé€😀" := by
  have hbroken : LineBroken (Base64.encode (Utf8.encode "aé€😀".toList))
      "\nYc\nOp4\n\noKs8J+YgA=\n=\n".toList := .of_filter (by decide +kernel)
  exact ⟨hbroken, decodeContent_of_lineBroken hbroken⟩

end

section

variable [Platform] {network : Http.Network} {r : GitHubRepository} {path text : String} {v : Json}
  {f : Fault}

def Askable (r : GitHubRepository) (path : String) : Prop :=
  Platform.isText path.toList = true ∧ Platform.isText r.branch.toList = true

theorem quotingFault?_eq_none : quotingFault? [path, r.branch] = none ↔ Askable r path := by
  rw [quotingFault?_eq_none_iff, Askable]
  simp

theorem askable_of_fetch (h : r.fetch network path = .ok text) : Askable r path := by
  rw [← quotingFault?_eq_none]
  unfold fetch at h
  split at h
  · simp at h
  · next hquoting => exact hquoting

theorem fetch_of_document (hask : Askable r path)
    (h : document network r (r.contentUrl path) = .ok v) :
    r.fetch network path = .ok text ↔ decodeContent v = .ok text := by
  unfold fetch
  rw [quotingFault?_eq_none.2 hask, h]
  exact mapError_eq_ok_iff

theorem fetch_of_fault (hask : Askable r path)
    (h : document network r (r.contentUrl path) = .error f) :
    r.fetch network path = .ok text ↔ f.nesting? = none ∧ text = "" := by
  unfold fetch
  rw [quotingFault?_eq_none.2 hask, h]
  cases hnesting : f.nesting? <;> simp [hnesting, eq_comm]

theorem exists_fetch_of_askable (hask : Askable r path) : (∃ text, r.fetch network path = .ok text) ↔
    ∀ cs, Replies network r (r.contentUrl path) cs →
      ¬ Json.NestedTooDeep cs ∧ ∀ v, Json.parse cs = .ok v → Plain v := by
  cases hdocument : document network r (r.contentUrl path) with
  | ok v =>
      simp only [fetch_of_document hask hdocument, exists_decodeContent_iff]
      constructor
      · intro hplain cs hcs
        refine ⟨fun hdeep => ?_, fun w hparse => ?_⟩
        · obtain ⟨f, hfault, -⟩ := exists_nesting_iff.2 ⟨cs, hcs, hdeep⟩
          simp [hdocument] at hfault
        · have hother := hdocument.symm.trans (document_eq_ok_iff.2 ⟨cs, hcs, hparse⟩)
          exact Except.ok.inj hother ▸ hplain
      · intro hplain
        obtain ⟨cs, hcs, hparse⟩ := document_eq_ok_iff.1 hdocument
        exact (hplain cs hcs).2 v hparse
  | error f =>
      simp only [fetch_of_fault hask hdocument, exists_and_left, exists_eq, and_true]
      constructor
      · intro hnone cs hcs
        refine ⟨fun hdeep => ?_, fun v hparse => ?_⟩
        · obtain ⟨g, hfault, hnesting⟩ := exists_nesting_iff.2 ⟨cs, hcs, hdeep⟩
          obtain rfl := Except.error.inj (hdocument.symm.trans hfault)
          simp [hnone] at hnesting
        · simp [document_eq_ok_iff.2 ⟨cs, hcs, hparse⟩] at hdocument
      · intro hplain
        by_contra hsome
        obtain ⟨cs, hcs, hdeep⟩ :=
          exists_nesting_iff.1 ⟨f, hdocument, Option.isSome_iff_ne_none.2 hsome⟩
        exact (hplain cs hcs).1 hdeep

theorem exists_fetch_iff : (∃ text, r.fetch network path = .ok text) ↔
    Askable r path ∧ ∀ cs, Replies network r (r.contentUrl path) cs →
      ¬ Json.NestedTooDeep cs ∧ ∀ v, Json.parse cs = .ok v → Plain v := by
  constructor
  · rintro ⟨text, h⟩
    have hask := askable_of_fetch h
    exact ⟨hask, (exists_fetch_of_askable hask).1 ⟨text, h⟩⟩
  · rintro ⟨hask, hplain⟩
    exact (exists_fetch_of_askable hask).2 hplain

theorem text_of_fetch (h : r.fetch network path = .ok text) :
    (∃ cs v, Replies network r (r.contentUrl path) cs ∧ Json.parse cs = .ok v ∧
      decodeContent v = .ok text) ∨
    text = "" ∧ ∀ cs v, Replies network r (r.contentUrl path) cs → Json.parse cs ≠ .ok v := by
  have hask := askable_of_fetch h
  cases hdocument : document network r (r.contentUrl path) with
  | ok v =>
      obtain ⟨cs, hcs, hparse⟩ := document_eq_ok_iff.1 hdocument
      exact .inl ⟨cs, v, hcs, hparse, (fetch_of_document hask hdocument).1 h⟩
  | error f =>
      refine .inr ⟨((fetch_of_fault hask hdocument).1 h).2, fun cs v hcs hparse => ?_⟩
      simp [document_eq_ok_iff.2 ⟨cs, hcs, hparse⟩] at hdocument

theorem contents_read_iff (network : Http.Network) (r : GitHubRepository) (path : String) :
    (∀ v, (∃ text, decodeContent v = .ok text) ↔ Plain v) ∧
    (∀ v text, decodeContent v = .ok text ↔
      Plain v ∧ (Decodes v text ∨ text = "" ∧ ∀ other, ¬ Decodes v other)) ∧
    (∀ v content text, HoldsContent v content →
      Base64.Spells content.toList (Utf8.encode text.toList) → decodeContent v = .ok text) ∧
    ((∃ text, r.fetch network path = .ok text) ↔
      Askable r path ∧ ∀ cs, Replies network r (r.contentUrl path) cs →
        ¬ Json.NestedTooDeep cs ∧ ∀ v, Json.parse cs = .ok v → Plain v) ∧
    (∀ text, r.fetch network path = .ok text →
      (∃ cs v, Replies network r (r.contentUrl path) cs ∧ Json.parse cs = .ok v ∧
        decodeContent v = .ok text) ∨
      text = "" ∧ ∀ cs v, Replies network r (r.contentUrl path) cs → Json.parse cs ≠ .ok v) ∧
    ∀ cs, Json.NestedTooDeep cs → Platform.jsonDepth < Json.openers cs :=
  ⟨fun _ => exists_decodeContent_iff, fun _ _ => decodeContent_eq_ok_iff,
    fun _ _ _ => decodeContent_of_spells, exists_fetch_iff, fun _ => text_of_fetch,
    fun _ => Json.NestedTooDeep.openers⟩

end

theorem accented_content_unread :
    decodeContent (.obj [("encoding", .str "base64"), ("content", .str "é")]) = .error .notAscii := by
  decide +kernel

end GitHubRepository

end SchemaDiagram
