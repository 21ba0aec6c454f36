import SchemaDiagram.Proofs.Source.Spellings

/-!
Line comments behind a simple value. A comment that stands alone is invisible; of several only the
last one is left out, and with the others in its text the value names no type.
-/

namespace SchemaDiagram.Written

open SchemaDiagram.Text

structure Spelling where
  qualifier : String
  type : FieldType
  listed : qualifier ∈ "" :: FieldType.qualifiers

def Spelling.chars (s : Spelling) : List Char :=
  s.qualifier.toList ++ s.type.name.toList

structure SimpleValue where
  spelling : Spelling
  isArray : Bool

def SimpleValue.text (v : SimpleValue) : List Char :=
  match v.isArray with
  | false => v.spelling.chars
  | true => bracketed v.spelling.chars

theorem lookup?_qualified : ∀ q ∈ "" :: FieldType.qualifiers, ∀ type ∈ FieldType.all,
    FieldType.lookup? (q.toList ++ type.name.toList) = some type := by
  decide +kernel

theorem inDotted_qualifier : ∀ q ∈ "" :: FieldType.qualifiers, ∀ c ∈ q.toList,
    inDotted c = true := by
  decide

theorem exists_eq_qualifier_append (cs : List Char) :
    ∃ q ∈ "" :: FieldType.qualifiers, cs = q.toList ++ FieldType.dropQualifier cs := by
  cases hfound : FieldType.qualifiers.findSome? fun q => q.toList.isPrefixOf? cs with
  | none => exact ⟨"", by simp, by simp [FieldType.dropQualifier, hfound]⟩
  | some rest =>
      obtain ⟨q, hq, hrest⟩ := List.exists_of_findSome?_eq_some hfound
      refine ⟨q, List.mem_cons_of_mem _ hq, ?_⟩
      have hsplit : q.toList ++ rest = cs := isPrefixOf?_eq_some_iff.1 hrest
      simp [FieldType.dropQualifier, hfound, hsplit]

theorem lookup?_of_mem_slash {cs : List Char} (h : '/' ∈ cs) : FieldType.lookup? cs = none := by
  have htrim : '/' ∈ trim cs := (mem_trim_iff (by decide)).2 h
  obtain ⟨q, hq, hsplit⟩ := exists_eq_qualifier_append (trim cs)
  have hnormal : '/' ∈ FieldType.normalize cs := by
    rw [hsplit] at htrim
    rcases List.mem_append.1 htrim with hmem | hmem
    · exact absurd rfl (ne_of_inDotted (inDotted_qualifier q hq '/' hmem) (by decide))
    · exact hmem
  refine List.find?_eq_none.2 fun type _ hname => ?_
  rw [← eq_of_beq hname] at hnormal
  exact ne_of_isWord (isWord_typeName type '/' hnormal) (by decide) rfl

namespace Spelling

variable (s : Spelling)

theorem lookup?_chars : FieldType.lookup? s.chars = some s.type :=
  lookup?_qualified s.qualifier s.listed s.type (FieldType.mem_all s.type)

theorem inDotted_chars : ∀ c ∈ s.chars, inDotted c = true := by
  intro c hc
  rcases List.mem_append.1 hc with hc | hc
  · exact inDotted_qualifier s.qualifier s.listed c hc
  · simp [inDotted, isWord_typeName s.type c hc]

theorem exists_chars_eq : ∃ c more, inDotted c = true ∧ s.chars = c :: more := by
  cases hchars : s.chars with
  | nil => exact absurd (List.append_eq_nil_iff.1 hchars).2 (typeName_nonempty s.type)
  | cons c more => exact ⟨c, more, s.inDotted_chars c (by simp [hchars]), rfl⟩

theorem trimmed : Trimmed s.chars :=
  trimmed_of_not_blank fun c hc => isBlank_of_inDotted (s.inDotted_chars c hc)

end Spelling

namespace SimpleValue

variable (v : SimpleValue)

theorem trimmed_text : Trimmed v.text := by
  rw [text]
  cases v.isArray with
  | false => exact v.spelling.trimmed
  | true => exact trimmed_between (by decide) (by decide) _

theorem inCode_text : ∀ c ∈ v.text, inCode c = true := by
  have hspecial : ∀ d ∈ ['/', '\'', '"', '\x60'], inDotted d = false := by decide
  have hchars : ∀ c ∈ v.spelling.chars, inCode c = true := fun c hc =>
    inCode_of_ne fun d hd => ne_of_inDotted (v.spelling.inDotted_chars c hc) (hspecial d hd)
  rw [text]
  cases v.isArray with
  | false => exact hchars
  | true => exact forall_mem_bracketed (by decide) (by decide) hchars

theorem kept_text : dropTrailingComment (trim v.text) = v.text := by
  refine kept_of_slashless v.trimmed_text ?_
  rintro c hc rfl
  exact absurd (v.inCode_text _ hc) (by decide)

theorem exists_text_eq : ∃ c more, isBlank c = false ∧ v.text = c :: more := by
  rw [text]
  cases v.isArray with
  | false =>
      obtain ⟨c, more, hc, hchars⟩ := v.spelling.exists_chars_eq
      exact ⟨c, more, isBlank_of_inDotted hc, hchars⟩
  | true => exact ⟨'[', _, by decide, rfl⟩

theorem ofValue_text : Field.ofValue v.text =
    { name := "", type := v.spelling.type, isArray := v.isArray } := by
  have hkept := v.kept_text
  obtain ⟨spelling, isArray⟩ := v
  cases isArray with
  | false => exact ofValue_of_lookup hkept spelling.lookup?_chars
  | true =>
      have hnone : FieldType.lookup? (bracketed spelling.chars) = none :=
        lookup?_bracket (.inl rfl) (trimmed_between (by decide) (by decide) _)
      refine ofValue_of_arrayType hkept hnone (bracketed?_array spelling.chars) ?_
      rw [spelling.trimmed.trim, spelling.lookup?_chars]

end SimpleValue

structure LineComment where
  text : List Char
  onOneLine : '\n' ∉ text

def LineComment.chars (c : LineComment) : List Char :=
  '/' :: '/' :: c.text

structure OwnLine where
  indent : List Char
  comment : LineComment
  indent_blank : ∀ c ∈ indent, isBlank c = true

def OwnLine.chars (l : OwnLine) : List Char :=
  '\n' :: l.indent ++ l.comment.chars

def comments (first : LineComment) (others : List OwnLine) : List Char :=
  first.chars ++ others.flatMap OwnLine.chars

def commented (value : List Char) (first : LineComment) (others : List OwnLine) : List Char :=
  value ++ ' ' :: comments first others

theorem commented_concat (value : List Char) (first : LineComment) (others : List OwnLine)
    (last : OwnLine) : commented value first (others ++ [last]) =
      commented value first others ++ '\n' :: last.indent ++ last.comment.chars := by
  simp [commented, comments, OwnLine.chars]

theorem trimRight_comments (first : LineComment) (others : List OwnLine) :
    ∃ more, trimRight (comments first others) = '/' :: more := by
  refine ⟨trimRight ('/' :: (first.text ++ others.flatMap OwnLine.chars)), ?_⟩
  exact trimRight_cons_of_not_blank (by decide) _

theorem trimRight_commented (value : List Char) (first : LineComment) (others : List OwnLine) :
    trimRight (commented value first others) = value ++ ' ' :: trimRight (comments first others) := by
  obtain ⟨more, hmore⟩ := trimRight_comments first others
  have hsplit : commented value first others = (value ++ [' ']) ++ comments first others := by
    simp [commented]
  rw [hsplit, trimRight_append_of_ne_nil (by simp [hmore]), List.append_assoc]
  rfl

section

variable (v : SimpleValue) (first : LineComment)

theorem kept_of_commented_one :
    dropTrailingComment (trim (commented v.text first [])) = v.text := by
  obtain ⟨c, more, hc, htext⟩ := v.exists_text_eq
  have hcode : ∀ d ∈ lastLine (c :: (more ++ [' '])), inCode d = true := by
    intro d hd
    have hmem := (lastLine_suffix _).subset hd
    rw [← List.cons_append, ← htext] at hmem
    rcases List.mem_append.1 hmem with hmem | hmem
    · exact v.inCode_text d hmem
    · rw [List.mem_singleton.1 hmem]
      decide
  have hsplit : commented v.text first [] = c :: (more ++ [' ']) ++ '/' :: '/' :: first.text := by
    simp [commented, comments, LineComment.chars, htext]
  rw [hsplit, kept_of_comment hc hcode first.onOneLine, ← List.cons_append, ← htext,
    trimRight_blank (by decide)]
  simpa using v.trimmed_text.trimRight_append (by simp [htext]) []

theorem kept_of_commented_concat (others : List OwnLine) (last : OwnLine) :
    dropTrailingComment (trim (commented v.text first (others ++ [last]))) =
      trimRight (commented v.text first others) := by
  obtain ⟨c, more, hc, htext⟩ := v.exists_text_eq
  obtain ⟨above, habove⟩ : ∃ above, commented v.text first others = c :: above := by
    rw [commented, htext]
    exact ⟨_, rfl⟩
  have hcode : ∀ d ∈ lastLine (c :: (above ++ '\n' :: last.indent)), inCode d = true := fun d hd =>
    inCode_of_isBlank (last.indent_blank d (mem_of_mem_lastLine (c :: above) hd))
  have hgap : ∀ d ∈ '\n' :: last.indent, isBlank d = true := by
    intro d hd
    rcases List.mem_cons.1 hd with rfl | hd
    · decide
    · exact last.indent_blank d hd
  rw [commented_concat, habove, LineComment.chars, List.cons_append,
    kept_of_comment hc hcode last.comment.onOneLine, ← List.cons_append,
    trimRight_append_of_eq_nil (trimRight_of_blank hgap)]

end

section

variable (s : Spelling) {value note : List Char}

theorem ofValue_noted_plain
    (hkept : dropTrailingComment (trim value) = s.chars ++ ' ' :: note) (hnote : '/' ∈ note) :
    Field.ofValue value = { name := "" } := by
  obtain ⟨c, more, hc, hchars⟩ := s.exists_chars_eq
  have hnone : FieldType.lookup? (s.chars ++ ' ' :: note) = none :=
    lookup?_of_mem_slash (by simp [hnote])
  have hhead {d : Char} (hd : inDotted d = false) : (s.chars ++ ' ' :: note).head? ≠ some d := by
    rw [hchars]
    exact fun h => ne_of_inDotted hc hd (Option.some.inj h)
  exact ofValue_of_unknown hkept hnone (bracketed?_of_head (hhead (by decide))) (hhead (by decide))

theorem ofValue_noted_array
    (hkept : dropTrailingComment (trim value) = bracketed s.chars ++ ' ' :: note)
    (hnote : '/' ∈ note) :
    Field.ofValue value = { name := "", isArray := note.getLast? == some ']' } := by
  -- If the note ends with a bracket, all of it counts as the inside of the array.
  obtain ⟨init, c, rfl⟩ : ∃ init c, note = init ++ [c] :=
    ⟨_, _, (List.dropLast_concat_getLast (List.ne_nil_of_mem hnote)).symm⟩
  have hnone : FieldType.lookup? (bracketed s.chars ++ ' ' :: (init ++ [c])) = none :=
    lookup?_of_mem_slash (List.mem_append_right _ (List.mem_cons_of_mem _ hnote))
  have hsplit : bracketed s.chars ++ ' ' :: (init ++ [c]) =
      '[' :: (s.chars ++ ']' :: ' ' :: init) ++ [c] := by simp [bracketed]
  rw [hsplit] at hkept hnone
  rw [List.getLast?_concat]
  by_cases hclose : c = ']'
  · subst hclose
    have hslash : '/' ∈ init := by simpa using hnote
    have hinside : FieldType.lookup? (trim (s.chars ++ ']' :: ' ' :: init)) = none :=
      lookup?_of_mem_slash ((mem_trim_iff (by decide)).2 (by simp [hslash]))
    have hhead : (trim (s.chars ++ ']' :: ' ' :: init)).head? ≠ some '{' := by
      obtain ⟨c, more, hc, hchars⟩ := s.exists_chars_eq
      have hblank := isBlank_of_inDotted hc
      rw [hchars, trim, List.cons_append, trimLeft_cons hblank, trimRight_cons_of_not_blank hblank]
      exact fun h => ne_of_inDotted hc (d := '{') (by decide) (Option.some.inj h)
    exact ofValue_of_arrayUnknown hkept hnone (bracketed?_array _) hinside hhead
  · have hlast : some c ≠ some ']' := fun h => hclose (Option.some.inj h)
    have hbrackets : bracketed? ('[' :: (s.chars ++ ']' :: ' ' :: init) ++ [c]) = none :=
      bracketed?_of_last (by rwa [List.getLast?_concat])
    rw [ofValue_of_unknown hkept hnone hbrackets (by simp), beq_eq_false_iff_ne.2 hlast]

end

section

variable (v : SimpleValue) (first : LineComment)

theorem ofValue_commented_one : Field.ofValue (commented v.text first []) = Field.ofValue v.text := by
  rw [Field.ofValue, Field.ofValue, kept_of_commented_one, v.kept_text]

theorem ofValue_commented_concat (others : List OwnLine) (last : OwnLine) :
    Field.ofValue (commented v.text first (others ++ [last])) =
      { name := ""
        isArray := v.isArray && (trimRight (comments first others)).getLast? == some ']' } := by
  have hkept := kept_of_commented_concat v first others last
  obtain ⟨more, hmore⟩ := trimRight_comments first others
  have hnote : '/' ∈ trimRight (comments first others) := by simp [hmore]
  rw [trimRight_commented] at hkept
  obtain ⟨spelling, isArray⟩ := v
  cases isArray with
  | false => exact ofValue_noted_plain spelling hkept hnote
  | true => exact ofValue_noted_array spelling hkept hnote

theorem ofValue_commented_iff (others : List OwnLine) :
    Field.ofValue (commented v.text first others) = Field.ofValue v.text ↔
      others = [] ∨ v.spelling.type = .mixed ∧
        (v.isArray = true → (trimRight (comments first others.dropLast)).getLast? = some ']') := by
  have hfields (isArray : Bool) : ({ name := "", isArray } : Field) =
        { name := "", type := v.spelling.type, isArray := v.isArray } ↔
      v.spelling.type = .mixed ∧ isArray = v.isArray := by
    constructor
    · exact fun h => ⟨(congrArg Field.type h).symm, congrArg Field.isArray h⟩
    · rintro ⟨htype, rfl⟩
      rw [htype]
  rcases List.eq_nil_or_concat others with rfl | ⟨above, last, hsplit⟩
  · exact iff_of_true (ofValue_commented_one v first) (.inl rfl)
  · have hmany : above ++ [last] ≠ [] := by simp
    rw [List.concat_eq_append] at hsplit
    subst hsplit
    rw [ofValue_commented_concat, v.ofValue_text, hfields, or_iff_right hmany, List.dropLast_concat]
    refine and_congr_right fun _ => ?_
    cases v.isArray with
    | false => simp
    | true => simp

end

def stringValue : SimpleValue where
  spelling := ⟨"", .string, by simp⟩
  isArray := false

def noteA : LineComment where
  text := " a".toList
  onOneLine := by decide

def noteB : OwnLine where
  indent := []
  comment := ⟨" b".toList, by decide⟩
  indent_blank := by simp

theorem stringValue_hidden_by_notes :
    commented stringValue.text noteA [noteB] = "String // a\n// b".toList ∧
      Field.ofValue (commented stringValue.text noteA [noteB]) ≠ Field.ofValue stringValue.text :=
  ⟨by decide, fun h => absurd (congrArg Field.type h) (by decide)⟩

end SchemaDiagram.Written
