import SchemaDiagram.Proofs.Source.Clauses
import SchemaDiagram.Proofs.Source.LineComments

namespace SchemaDiagram.Written

open SchemaDiagram.Text

def inLiteral (c : Char) : Bool :=
  inBody c || [':', '{', '}'].contains c

theorem ne_of_inLiteral {c d : Char} (hc : inLiteral c = true) (hd : inLiteral d = false) :
    c ≠ d := by
  rintro rfl
  rw [hc] at hd
  exact absurd hd (by simp)

theorem inLiteral_of_inBody {c : Char} (h : inBody c = true) : inLiteral c = true := by
  simp [inLiteral, h]

theorem isWord_typeName (type : FieldType) : ∀ c ∈ type.name.toList, isWord c = true := by
  cases type <;> decide

theorem typeName_nonempty (type : FieldType) : type.name.toList ≠ [] := by
  cases type <;> decide

def typeWord (type : FieldType) : Word :=
  ⟨type.name.toList, typeName_nonempty type, isWord_typeName type⟩

def TypePath.ofType (type : FieldType) : TypePath :=
  ⟨typeWord type, [], by simp⟩

theorem TypePath.chars_ofType (type : FieldType) : (ofType type).chars = type.name.toList :=
  List.append_nil _

def Trait.clause : Trait → Clause
  | .required => .required true
  | .ref target => .ref target
  | .default value => .default (.quoted value)
  | .enum first others => .enum first others

theorem Trait.entry_clause (t : Trait) : t.clause.entry = t.entry := by
  cases t <;> rfl

namespace Value

def clauses (type : FieldType) (traits : List Trait) : List Clause :=
  .type false (.ofType type) :: traits.map Trait.clause

theorem entries_eq (type : FieldType) (traits : List Trait) :
    entries type traits = (clauses type traits).map Clause.entry := by
  have htype : typeEntry type = (Clause.type false (.ofType type)).entry :=
    congrArg (Entry.mk "type") (TypePath.chars_ofType type).symm
  rw [entries, clauses, htype, List.map_cons, List.map_map]
  exact congrArg (List.cons _) (List.map_congr_left fun t _ => t.entry_clause.symm)

theorem text_object (type : FieldType) (traits : List Trait) :
    (object type traits).text = objectText ((clauses type traits).map Clause.text) := by
  rw [text, entries_eq, List.map_map]
  rfl

end Value

theorem plain_entries (type : FieldType) (traits : List Trait) :
    ∀ a ∈ Value.entries type traits, a.Plain := by
  intro a ha
  rw [Value.entries_eq] at ha
  obtain ⟨c, -, rfl⟩ := List.mem_map.1 ha
  exact plain_clause c

theorem inBody_entry (t : Trait) : ∀ c ∈ t.entry.body, inBody c = true := by
  cases t with
  | required => decide
  | ref target => exact inBody_quotedText target
  | default value => exact inBody_quotedText value
  | enum first others =>
      exact forall_mem_bracketed (by decide) (by decide) (inBody_quotedList first others)

theorem inBody_entries (type : FieldType) (traits : List Trait) :
    ∀ a ∈ Value.entries type traits, ∀ c ∈ a.body, inBody c = true := by
  intro a ha
  simp only [Value.entries, List.mem_cons, List.mem_map] at ha
  rcases ha with rfl | ⟨t, -, rfl⟩
  · exact fun c hc => inBody_of_isWord (isWord_typeName type c hc)
  · exact inBody_entry t

theorem Value.fieldOf_clauses (type : FieldType) (traits : List Trait) :
    fieldOf (clauses type traits) = (object type traits).field := by
  have htraits {α : Type} {f : Clause → Option α} {g : Trait → Option α}
      (htype : f (.type false (.ofType type)) = none) (h : ∀ t : Trait, f t.clause = g t) :
      (clauses type traits).findSome? f = traits.findSome? g := by
    rw [clauses, findSome?_cons_eq_or, htype, Option.none_or, List.findSome?_map]
    exact congrArg (traits.findSome? ·) (funext h)
  have hpath : (clauses type traits).findSome? Clause.path? = some type.name.toList := by
    rw [clauses, findSome?_cons_eq_or, Clause.path?, TypePath.chars_ofType, Option.some_or]
  have harray : (clauses type traits).any Clause.isArray = false := by
    have hnone : ∀ t ∈ traits, ¬ t.clause.isArray = true := by
      intro t _
      cases t <;> exact Bool.false_ne_true
    rw [clauses, List.any_cons, List.any_map]
    exact List.any_eq_false.2 hnone
  have hrequired : (clauses type traits).any Clause.isRequired = traits.any Trait.isRequired := by
    have hsame : Clause.isRequired ∘ Trait.clause = Trait.isRequired := by
      funext t
      cases t <;> rfl
    rw [clauses, List.any_cons, List.any_map, hsame]
    rfl
  have href := htraits (f := Clause.ref?) (g := Trait.ref?) rfl (by intro t; cases t <;> rfl)
  have hdefault := htraits (f := Clause.default?) (g := Trait.default?) rfl
    (by intro t; cases t <;> rfl)
  have henum := htraits (f := Clause.enum?) (g := Trait.enum?) rfl (by intro t; cases t <;> rfl)
  simp only [fieldOf, hpath, harray, hrequired, href, hdefault, henum, FieldType.coerce_name]
  rfl

theorem ofObject_text (type : FieldType) (traits : List Trait) :
    Field.ofObject (Value.object type traits).text = (Value.object type traits).field := by
  rw [Value.text_object, ofObject_clauses, Value.fieldOf_clauses]

theorem lookup?_typeName (type : FieldType) : FieldType.lookup? type.name.toList = some type := by
  cases type <;> decide

theorem lookup?_bracket {c : Char} {cs : List Char} (hc : c = '[' ∨ c = '{')
    (h : Trimmed (c :: cs)) : FieldType.lookup? (c :: cs) = none := by
  rw [FieldType.lookup?, FieldType.normalize, h.trim]
  rcases hc with rfl | rfl
  · rfl
  · rfl

theorem trimmed_objectText (pieces : List (List Char)) : Trimmed (objectText pieces) := by
  have htext : objectText pieces = '{' :: (' ' :: joinWith separator pieces ++ [' ']) ++ ['}'] := by
    simp [objectText]
  rw [htext]
  exact trimmed_between (by decide) (by decide) _

theorem inLiteral_objectText {pieces : List (List Char)}
    (h : ∀ piece ∈ pieces, ∀ c ∈ piece, inLiteral c = true) :
    ∀ c ∈ objectText pieces, inLiteral c = true := by
  have hjoin : ∀ c ∈ joinWith separator pieces, inLiteral c = true :=
    forall_mem_joinWith (by decide) h
  have hfixed : ∀ c ∈ ['{', ' ', '}'], inLiteral c = true := by decide
  intro c hc
  simp only [objectText, List.cons_append, List.mem_cons, List.mem_append, List.not_mem_nil,
    or_false] at hc
  rcases hc with rfl | rfl | hc | rfl | rfl
  · exact hfixed _ (by simp)
  · exact hfixed _ (by simp)
  · exact hjoin c hc
  · exact hfixed _ (by simp)
  · exact hfixed _ (by simp)

theorem inLiteral_spoken {name body : List Char} (hname : ∀ c ∈ name, isWord c = true)
    (hbody : ∀ c ∈ body, inLiteral c = true) :
    ∀ c ∈ name ++ ':' :: ' ' :: body, inLiteral c = true := by
  intro c hc
  simp only [List.mem_append, List.mem_cons] at hc
  rcases hc with hc | rfl | rfl | hc
  · exact inLiteral_of_inBody (inBody_of_isWord (hname c hc))
  · rfl
  · rfl
  · exact hbody c hc

theorem Value.inLiteral_text (v : Value) : ∀ c ∈ v.text, inLiteral c = true := by
  have htype (type : FieldType) : ∀ c ∈ type.name.toList, inLiteral c = true :=
    fun c hc => inLiteral_of_inBody (inBody_of_isWord (isWord_typeName type c hc))
  cases v with
  | plain type => exact htype type
  | array type =>
      intro c hc
      simp only [Value.text, List.cons_append, List.mem_cons, List.mem_append, List.not_mem_nil,
        or_false] at hc
      rcases hc with rfl | hc | rfl
      · rfl
      · exact htype type c hc
      · rfl
  | object type traits =>
      refine inLiteral_objectText fun piece hpiece => ?_
      obtain ⟨a, ha, rfl⟩ := List.mem_map.1 hpiece
      exact inLiteral_spoken (plain_entries type traits a ha).label_isWord
        fun c hc => inLiteral_of_inBody (inBody_entries type traits a ha c hc)

theorem Value.nonempty_text (v : Value) : v.text ≠ [] := by
  cases v with
  | plain type => exact typeName_nonempty type
  | array type => simp [Value.text]
  | object type traits => simp [Value.text, objectText]

theorem Value.trimmed_text (v : Value) : Trimmed v.text := by
  cases v with
  | plain type => exact trimmed_of_word (isWord_typeName type)
  | array type => exact trimmed_between (by decide) (by decide) _
  | object type traits => exact trimmed_objectText _

theorem bracketed?_array (cs : List Char) : bracketed? ('[' :: cs ++ [']']) = some cs := by
  have hlast : ('[' :: cs ++ [']']).getLast? = some ']' := List.getLast?_concat
  rw [bracketed?, hlast]
  simp

theorem bracketed?_of_head {cs : List Char} (h : cs.head? ≠ some '[') : bracketed? cs = none := by
  simp [bracketed?, h]

theorem bracketed?_of_last {cs : List Char} (h : cs.getLast? ≠ some ']') : bracketed? cs = none := by
  simp [bracketed?, h]

section

variable {value kept : List Char}

theorem ofValue_of_lookup (hkept : dropTrailingComment (trim value) = kept) {type : FieldType}
    (h : FieldType.lookup? kept = some type) : Field.ofValue value = { name := "", type } := by
  simp only [Field.ofValue, hkept, h]

theorem ofValue_of_brace (hkept : dropTrailingComment (trim value) = kept)
    (hnone : FieldType.lookup? kept = none) (h : kept.head? = some '{') :
    Field.ofValue value = Field.ofObject kept := by
  have hbrackets : bracketed? kept = none := bracketed?_of_head (by simp [h])
  simp only [Field.ofValue, hkept, hnone, hbrackets, h, if_true]

theorem ofValue_of_unknown (hkept : dropTrailingComment (trim value) = kept)
    (hnone : FieldType.lookup? kept = none) (hbrackets : bracketed? kept = none)
    (hbrace : kept.head? ≠ some '{') : Field.ofValue value = { name := "" } := by
  simp only [Field.ofValue, hkept, hnone, hbrackets, if_neg hbrace]

variable {inside : List Char}

theorem ofValue_of_arrayType (hkept : dropTrailingComment (trim value) = kept)
    (hnone : FieldType.lookup? kept = none) (hbrackets : bracketed? kept = some inside)
    {type : FieldType} (h : FieldType.lookup? (trim inside) = some type) :
    Field.ofValue value = { name := "", type, isArray := true } := by
  simp only [Field.ofValue, hkept, hnone, hbrackets, h]

theorem ofValue_of_arrayBrace (hkept : dropTrailingComment (trim value) = kept)
    (hnone : FieldType.lookup? kept = none) (hbrackets : bracketed? kept = some inside)
    (hinside : FieldType.lookup? (trim inside) = none) (h : (trim inside).head? = some '{') :
    Field.ofValue value = { Field.ofObject (trim inside) with isArray := true } := by
  simp only [Field.ofValue, hkept, hnone, hbrackets, hinside, h, if_true]

theorem ofValue_of_arrayUnknown (hkept : dropTrailingComment (trim value) = kept)
    (hnone : FieldType.lookup? kept = none) (hbrackets : bracketed? kept = some inside)
    (hinside : FieldType.lookup? (trim inside) = none) (h : (trim inside).head? ≠ some '{') :
    Field.ofValue value = { name := "", isArray := true } := by
  simp only [Field.ofValue, hkept, hnone, hbrackets, hinside, if_neg h]

end

theorem ofValue_of_braces {inside : List Char} (hline : '\n' ∉ '{' :: inside ++ ['}'])
    (hcomment : beforeComment? .code ('{' :: inside ++ ['}']) = none) :
    Field.ofValue ('{' :: inside ++ ['}']) = Field.ofObject ('{' :: inside ++ ['}']) := by
  have htrimmed : Trimmed ('{' :: inside ++ ['}']) := trimmed_between (by decide) (by decide) inside
  have hkept : dropTrailingComment (trim ('{' :: inside ++ ['}'])) = '{' :: inside ++ ['}'] := by
    rw [htrimmed.trim]
    exact dropTrailingComment_of_none (by rwa [lastLine_eq_self hline])
  exact ofValue_of_brace hkept (lookup?_bracket (.inr rfl) htrimmed) rfl

theorem ofValue_text (v : Value) : Field.ofValue v.text = v.field := by
  have hkept : dropTrailingComment (trim v.text) = v.text :=
    kept_of_slashless v.trimmed_text fun c hc => ne_of_inLiteral (v.inLiteral_text c hc) (by decide)
  cases v with
  | plain type => exact ofValue_of_lookup hkept (lookup?_typeName type)
  | array type =>
      have hnone : FieldType.lookup? (Value.array type).text = none :=
        lookup?_bracket (.inl rfl) (Value.array type).trimmed_text
      have htrim : trim type.name.toList = type.name.toList :=
        (trimmed_of_word (isWord_typeName type)).trim
      refine ofValue_of_arrayType hkept hnone (bracketed?_array type.name.toList) ?_
      rw [htrim, lookup?_typeName]
  | object type traits =>
      have hnone : FieldType.lookup? (Value.object type traits).text = none :=
        lookup?_bracket (.inr rfl) (Value.object type traits).trimmed_text
      rw [ofValue_of_brace hkept hnone rfl, ofObject_text]

section

open SchemaDiagram.Attribute (label? labelled)

variable {α : Type} {name : String} {read : List Char → Option (α × List Char)} {body : List Char}
  {found : α} {rest : List Char}

theorem findFrom?_lastEntry (hbody : body ≠ []) (htrimmed : Trimmed body)
    (h : read (body ++ [' ', '}']) = some (found, rest)) :
    findFrom? (labelled name read) (some ' ') ((Entry.mk name body).text ++ [' ', '}']) =
      some found := by
  have hlabel : label? name (some ' ') ((Entry.mk name body).text ++ [' ', '}']) =
      some (body ++ [' ', '}']) :=
    label?_text (a := ⟨name, body⟩) hbody htrimmed (some ' ') rfl rfl _
  have hread : labelled name read (some ' ') ((Entry.mk name body).text ++ [' ', '}']) =
      some (found, rest) := by rw [labelled, hlabel, Option.bind_some, h]
  exact findFrom?_of_read hread

theorem find?_behindType (hne : name.toList ≠ []) (hname : ∀ c ∈ name.toList, isWord c = true)
    (htype : "type" ≠ name) (hbody : body ≠ []) (htrimmed : Trimmed body)
    (h : read (body ++ [' ', '}']) = some (found, rest)) :
    find? (labelled name read) ('{' :: ' ' :: ((Value.typeEntry .string).text ++
      ',' :: ' ' :: ((Entry.mk name body).text ++ [' ', '}']))) = some found := by
  have hw : Worded (labelled name read) := worded_labelled hne hname
  have hplain : (Value.typeEntry .string).Plain :=
    plain_entries .string [] _ (by simp [Value.entries])
  have hclosing : closing (',' :: ' ' :: ((Entry.mk name body).text ++ [' ', '}'])) :=
    .inr (.inr ⟨_, rfl⟩)
  have hlabel : ¬ (Value.typeEntry .string).label = name := htype
  rw [find?, hw.findFrom?_cons (by decide), hw.findFrom?_cons (by decide),
    findFrom?_attribute hplain (some ' ') rfl hne hname hclosing, if_neg hlabel, Option.map_none,
    Option.none_or, hw.findFrom?_cons (by decide), hw.findFrom?_cons (by decide)]
  exact findFrom?_lastEntry hbody htrimmed h

end

end SchemaDiagram.Written
