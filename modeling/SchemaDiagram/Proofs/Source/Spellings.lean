import SchemaDiagram.Proofs.Source.Values

/-!
Places for a type. A path of words means the same type alone and in an object literal, and the same
array within brackets, wherever these stand.
-/

namespace SchemaDiagram.Written

open SchemaDiagram.Text

def typeObject (type : List Char) : List Char :=
  "\x7b type: ".toList ++ type ++ " \x7d".toList

def bracketed (cs : List Char) : List Char :=
  '[' :: cs ++ [']']

theorem typeObject_eq (type : List Char) :
    typeObject type = objectText [(Entry.mk "type" type).text] := by
  have hfront : "\x7b type: ".toList = '{' :: ' ' :: ("type".toList ++ [':', ' ']) := by decide
  have hback : " \x7d".toList = [' ', '}'] := by decide
  have hjoin {front front' back back' : List Char} (hf : front = front') (hb : back = back') :
      front ++ type ++ back = front' ++ type ++ back' := by rw [hf, hb]
  refine (hjoin hfront hback).trans ?_
  simp only [objectText, joinWith, Entry.text, List.cons_append, List.append_assoc,
    List.nil_append]

theorem trimmed_typeObject (type : List Char) : Trimmed (typeObject type) := by
  rw [typeObject_eq]
  exact trimmed_objectText _

theorem lookup?_typeObject (type : List Char) : FieldType.lookup? (typeObject type) = none := by
  rw [typeObject_eq]
  exact lookup?_bracket (.inr rfl) (trimmed_objectText _)

theorem head_typeObject (type : List Char) : (typeObject type).head? = some '{' := by
  rw [typeObject_eq]
  rfl

theorem slashless_typeObject {type : List Char} (h : ∀ c ∈ type, c ≠ '/') :
    ∀ c ∈ typeObject type, c ≠ '/' := by
  have hfront : ∀ c ∈ "\x7b type: ".toList, c ≠ '/' := by decide
  have hback : ∀ c ∈ " \x7d".toList, c ≠ '/' := by decide
  intro c hc
  rcases List.mem_append.1 hc with hc | hc
  · rcases List.mem_append.1 hc with hc | hc
    · exact hfront c hc
    · exact h c hc
  · exact hback c hc

theorem ofValue_typeObject {type : List Char} (h : ∀ c ∈ type, c ≠ '/') :
    Field.ofValue (typeObject type) = Field.ofObject (typeObject type) :=
  ofValue_of_brace (kept_of_slashless (trimmed_typeObject type) (slashless_typeObject h))
    (lookup?_typeObject type) (head_typeObject type)

theorem slashless_bracketed {cs : List Char} (h : ∀ c ∈ cs, c ≠ '/') : ∀ c ∈ bracketed cs, c ≠ '/' :=
  forall_mem_bracketed (by decide) (by decide) h

theorem ofValue_dotted {cs : List Char} (h : ∀ c ∈ cs, inDotted c = true) :
    Field.ofValue cs = { name := "", type := .coerce cs } := by
  have htrimmed : Trimmed cs := trimmed_of_not_blank fun c hc => isBlank_of_inDotted (h c hc)
  have hkept := kept_of_slashless htrimmed fun c hc => ne_of_inDotted (h c hc) (by decide)
  have hhead {d : Char} (hd : inDotted d = false) : cs.head? ≠ some d :=
    fun hsome => ne_of_inDotted (h d (List.mem_of_mem_head? hsome)) hd rfl
  have hbrackets : bracketed? cs = none := bracketed?_of_head (hhead (by decide))
  cases hlookup : FieldType.lookup? cs with
  | some type =>
      rw [ofValue_of_lookup hkept hlookup, FieldType.coerce, hlookup]
      rfl
  | none =>
      rw [ofValue_of_unknown hkept hlookup hbrackets (hhead (by decide)), FieldType.coerce, hlookup]
      rfl

namespace TypePath

variable (p : TypePath)

theorem slashless_chars : ∀ c ∈ p.chars, c ≠ '/' :=
  fun c hc => ne_of_inDotted (p.inDotted_chars c hc) (by decide)

theorem head_chars_ne {d : Char} (hd : isWord d = false) : p.chars.head? ≠ some d := by
  obtain ⟨c, more, hc, hchars⟩ := p.exists_chars_eq
  rw [hchars]
  exact fun h => ne_of_isWord hc hd (Option.some.inj h)

theorem ofValue_chars : Field.ofValue p.chars = { name := "", type := .coerce p.chars } :=
  ofValue_dotted p.inDotted_chars

theorem ofValue_bracketed : Field.ofValue (bracketed p.chars) =
    { name := "", type := .coerce p.chars, isArray := true } := by
  have htrimmed : Trimmed (bracketed p.chars) := trimmed_between (by decide) (by decide) p.chars
  have hkept := kept_of_slashless htrimmed (slashless_bracketed p.slashless_chars)
  have hnone : FieldType.lookup? (bracketed p.chars) = none := lookup?_bracket (.inl rfl) htrimmed
  have hbrackets : bracketed? (bracketed p.chars) = some p.chars := bracketed?_array p.chars
  have htrim : trim p.chars = p.chars := p.trimmed.trim
  cases hlookup : FieldType.lookup? p.chars with
  | some type =>
      rw [ofValue_of_arrayType hkept hnone hbrackets (htrim.symm ▸ hlookup), FieldType.coerce,
        hlookup]
      rfl
  | none =>
      rw [ofValue_of_arrayUnknown hkept hnone hbrackets (htrim.symm ▸ hlookup)
        (htrim.symm ▸ p.head_chars_ne (by decide)), FieldType.coerce, hlookup]
      rfl

theorem slashless_typeText (isArray : Bool) : ∀ c ∈ typeText isArray p, c ≠ '/' := by
  cases isArray with
  | false => exact p.slashless_chars
  | true => exact slashless_bracketed p.slashless_chars

theorem ofObject_typeObject (isArray : Bool) : Field.ofObject (typeObject (typeText isArray p)) =
    { name := "", type := .coerce p.chars, isArray } := by
  have hclauses : typeObject (typeText isArray p) =
      objectText ([Clause.type isArray p].map Clause.text) := typeObject_eq _
  rw [hclauses, ofObject_clauses]
  cases isArray <;> rfl

theorem ofValue_typeObject (isArray : Bool) : Field.ofValue (typeObject (typeText isArray p)) =
    { name := "", type := .coerce p.chars, isArray } := by
  rw [Written.ofValue_typeObject (p.slashless_typeText isArray), ofObject_typeObject]

theorem ofValue_bracketed_typeObject : Field.ofValue (bracketed (typeObject p.chars)) =
    { name := "", type := .coerce p.chars, isArray := true } := by
  have htrimmed : Trimmed (bracketed (typeObject p.chars)) :=
    trimmed_between (by decide) (by decide) _
  have hkept := kept_of_slashless htrimmed
    (slashless_bracketed (slashless_typeObject p.slashless_chars))
  have hnone : FieldType.lookup? (bracketed (typeObject p.chars)) = none :=
    lookup?_bracket (.inl rfl) htrimmed
  have hbrackets : bracketed? (bracketed (typeObject p.chars)) = some (typeObject p.chars) :=
    bracketed?_array _
  have htrim : trim (typeObject p.chars) = typeObject p.chars := (trimmed_typeObject _).trim
  have hinside : FieldType.lookup? (trim (typeObject p.chars)) = none :=
    htrim.symm ▸ lookup?_typeObject _
  have hhead : (trim (typeObject p.chars)).head? = some '{' := htrim.symm ▸ head_typeObject _
  have hobject : Field.ofObject (typeObject p.chars) = { name := "", type := .coerce p.chars } :=
    p.ofObject_typeObject false
  rw [ofValue_of_arrayBrace hkept hnone hbrackets hinside hhead, htrim, hobject]

end TypePath

theorem spellings_agree (p : TypePath) :
    Field.ofValue p.chars = Field.ofValue (typeObject p.chars) ∧
    Field.ofValue (bracketed p.chars) = Field.ofValue (typeObject (bracketed p.chars)) ∧
    Field.ofValue (bracketed p.chars) = Field.ofValue (bracketed (typeObject p.chars)) ∧
    Field.ofValue (bracketed p.chars) = { Field.ofValue p.chars with isArray := true } := by
  have htyped : Field.ofValue (typeObject p.chars) = { name := "", type := .coerce p.chars } :=
    p.ofValue_typeObject false
  have hlisted : Field.ofValue (typeObject (bracketed p.chars)) =
      { name := "", type := .coerce p.chars, isArray := true } := p.ofValue_typeObject true
  rw [p.ofValue_chars, p.ofValue_bracketed, p.ofValue_bracketed_typeObject, htyped, hlisted]
  exact ⟨rfl, rfl, rfl, rfl⟩

end SchemaDiagram.Written
