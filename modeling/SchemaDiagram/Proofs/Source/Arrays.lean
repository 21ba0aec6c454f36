import SchemaDiagram.Proofs.Source.Spellings

/-!
Arrays. What stands between square brackets is read as it is without them, but for the brackets.
-/

namespace SchemaDiagram.Written

open SchemaDiagram.Text

section

variable {v : List Char}

theorem kept_trim (h : '/' ∉ v) : dropTrailingComment (trim v) = trim v := by
  refine dropTrailingComment_eq_self fun c hc hslash => h ?_
  exact (mem_trim_iff (by decide)).1 (hslash ▸ hc)

theorem kept_bracketed (h : '/' ∉ v) : dropTrailingComment (trim (bracketed v)) = bracketed v := by
  refine kept_of_slashless (trimmed_between (by decide) (by decide) v) (slashless_bracketed ?_)
  rintro c hc rfl
  exact h hc

theorem ofValue_inBrackets (hslash : '/' ∉ v) (hopen : (trim v).head? ≠ some '[') :
    Field.ofValue (bracketed v) = { Field.ofValue v with isArray := true } := by
  have hinner := kept_trim hslash
  have houter := kept_bracketed hslash
  have hnone : FieldType.lookup? (bracketed v) = none :=
    lookup?_bracket (.inl rfl) (trimmed_between (by decide) (by decide) v)
  have hinside : bracketed? (bracketed v) = some v := bracketed?_array v
  cases hlookup : FieldType.lookup? (trim v) with
  | some type =>
      rw [ofValue_of_arrayType houter hnone hinside hlookup, ofValue_of_lookup hinner hlookup]
  | none =>
      by_cases hbrace : (trim v).head? = some '{'
      · rw [ofValue_of_arrayBrace houter hnone hinside hlookup hbrace,
          ofValue_of_brace hinner hlookup hbrace]
      · rw [ofValue_of_arrayUnknown houter hnone hinside hlookup hbrace,
          ofValue_of_unknown hinner hlookup (bracketed?_of_head hopen) hbrace]

end

def pairedObjects : List Char :=
  "\n \x7b type: Types.Date, enum: ['a', 'b'] \x7d, \x7b ref: 'User', required: true ] \n".toList

def pairedField : Field :=
  { name := "", type := .date, required := true, ref := .str "User",
    enumValues := some [.str "a", .str "b"] }

theorem pairedObjects_inBrackets :
    '/' ∉ pairedObjects ∧ (trim pairedObjects).head? ≠ some '[' ∧
    Field.ofValue pairedObjects = pairedField ∧
    Field.ofValue (bracketed pairedObjects) = { pairedField with isArray := true } := by
  have hslash : '/' ∉ pairedObjects := by decide +kernel
  have hopen : (trim pairedObjects).head? ≠ some '[' := by decide +kernel
  have hvalue : Field.ofValue pairedObjects = pairedField := by rfl
  refine ⟨hslash, hopen, hvalue, ?_⟩
  rw [ofValue_inBrackets hslash hopen, hvalue]

end SchemaDiagram.Written
