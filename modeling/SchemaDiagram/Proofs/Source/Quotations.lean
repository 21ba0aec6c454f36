import SchemaDiagram.Proofs.Source.Values

/-!
Strings as defaults and references. They are read up to the first quote of either kind, although to
tell a comment behind a value from its strings, each string goes on to the quote it started with.
-/

namespace SchemaDiagram.Written

open SchemaDiagram.Text

/-- A string on one line, without its own quote in it. -/
structure StringLiteral where
  quote : Char
  inside : List Char
  isQuote_quote : isQuote quote = true
  nonempty : inside ≠ []
  unquoted : quote ∉ inside
  onOneLine : '\n' ∉ inside

namespace StringLiteral

variable (s : StringLiteral)

def text : List Char :=
  s.quote :: s.inside ++ [s.quote]

def endingObject (front : List Char) : List Char :=
  front ++ s.text ++ [' ', '}']

def defaultObject : List Char :=
  s.endingObject "\x7b type: String, default: ".toList

def refObject : List Char :=
  s.endingObject "\x7b ref: ".toList

theorem quote_eq : s.quote = '\'' ∨ s.quote = '"' := by
  simpa [isQuote] using s.isQuote_quote

theorem of_quotes {P : Char → Prop} (hsingle : P '\'') (hdouble : P '"') : P s.quote := by
  rcases s.quote_eq with h | h
  · exact h ▸ hsingle
  · exact h ▸ hdouble

theorem trimmed_text : Trimmed s.text := by
  have hblank : isBlank s.quote = false :=
    s.of_quotes (P := fun q => isBlank q = false) (by decide) (by decide)
  exact trimmed_between hblank hblank s.inside

theorem nonempty_text : s.text ≠ [] := by
  simp [text]

section

variable {front : List Char} (hbrace : front.head? = some '{')
  (hfront : ∀ c ∈ front, inCode c = true ∧ c ≠ '\n')

include hbrace in
theorem exists_endingObject_eq :
    ∃ more, s.endingObject front = '{' :: more ++ ['}'] := by
  obtain ⟨more, rfl⟩ := List.head?_eq_some_iff.1 hbrace
  exact ⟨more ++ s.text ++ [' '], by simp [endingObject]⟩

include hfront in
theorem notMem_endingObject : '\n' ∉ s.endingObject front := by
  have hquote : s.quote ≠ '\n' := s.of_quotes (P := (· ≠ '\n')) (by decide) (by decide)
  have hfrontLine : '\n' ∉ front := fun h => (hfront '\n' h).2 rfl
  simp [endingObject, text, hfrontLine, s.onOneLine, Ne.symm hquote]

include hfront in
theorem beforeComment?_endingObject : beforeComment? .code (s.endingObject front) = none := by
  have hquote : s.quote ≠ '/' := s.of_quotes (P := (· ≠ '/')) (by decide) (by decide)
  have hbehind : ∀ c ∈ [s.quote, ' ', '}'], c ≠ '/' := by simp [hquote]
  have hstring : beforeComment? .code (s.quote :: (s.inside ++ [s.quote, ' ', '}'])) = none := by
    simp [beforeComment?, s.isQuote_quote, (beforeComment?_quoted s.unquoted hbehind).1]
  have hsplit : s.endingObject front = front ++ s.quote :: (s.inside ++ [s.quote, ' ', '}']) := by
    simp [endingObject, text]
  rw [hsplit, beforeComment?_append (fun c hc => (hfront c hc).1), hstring]
  rfl

include hbrace hfront in
theorem ofValue_endingObject :
    Field.ofValue (s.endingObject front) = Field.ofObject (s.endingObject front) := by
  have hline := s.notMem_endingObject hfront
  have hcomment := s.beforeComment?_endingObject hfront
  obtain ⟨more, hmore⟩ := s.exists_endingObject_eq hbrace
  rw [hmore] at hline hcomment ⊢
  exact ofValue_of_braces hline hcomment

end

theorem refObject_eq :
    s.refObject = '{' :: ' ' :: ((Entry.mk "ref" s.text).text ++ [' ', '}']) := by
  have hfront : "\x7b ref: ".toList = '{' :: ' ' :: ("ref".toList ++ [':', ' ']) := by decide
  refine (congrArg s.endingObject hfront).trans ?_
  simp only [endingObject, Entry.text, List.cons_append, List.append_assoc, List.nil_append]

theorem defaultObject_eq :
    s.defaultObject = '{' :: ' ' :: ((Value.typeEntry .string).text ++
      ',' :: ' ' :: ((Entry.mk "default" s.text).text ++ [' ', '}'])) := by
  have hfront : "\x7b type: String, default: ".toList =
      '{' :: ' ' :: ((Value.typeEntry .string).text ++
        ',' :: ' ' :: ("default".toList ++ [':', ' '])) := by
    decide
  refine (congrArg s.endingObject hfront).trans ?_
  simp only [endingObject, Entry.text, List.cons_append, List.append_assoc, List.nil_append]

theorem text_append (rest : List Char) :
    s.text ++ rest = s.quote :: s.inside ++ s.quote :: rest := by
  simp [text]

theorem find?_default : find? Attribute.default? s.defaultObject =
    some (s.inside.takeWhile (!isQuote ·)) := by
  have hquoted := quoted?_quotes s.isQuote_quote s.inside [' ', '}']
  rw [← s.text_append] at hquoted
  obtain ⟨⟨_, rest⟩, hread, rfl⟩ := Option.map_eq_some_iff.1 hquoted
  have hdefault : (quoted? (s.text ++ [' ', '}'])).orElse
      (fun _ => Attribute.bareDefault? (s.text ++ [' ', '}'])) =
        some (s.inside.takeWhile (!isQuote ·), rest) := by
    rw [hread]
    rfl
  rw [s.defaultObject_eq]
  exact find?_behindType (by decide) (by decide) (by decide) s.nonempty_text s.trimmed_text hdefault

theorem find?_ref_of_unquoted (h : ∀ c ∈ s.inside, isQuote c = false) :
    find? Attribute.ref? s.refObject = some s.inside := by
  have hw : Worded Attribute.ref? := worded_labelled (by decide) (by decide)
  have hread : quotedName? (s.text ++ [' ', '}']) = some (s.inside, [' ', '}']) := by
    rw [s.text_append]
    exact quotedName?_append s.isQuote_quote s.isQuote_quote s.nonempty h
  rw [s.refObject_eq, find?, hw.findFrom?_cons (by decide), hw.findFrom?_cons (by decide)]
  exact findFrom?_lastEntry s.nonempty_text s.trimmed_text hread

theorem ofValue_defaultObject : Field.ofValue s.defaultObject = Field.ofObject s.defaultObject :=
  s.ofValue_endingObject (by decide) (by decide)

theorem ofValue_refObject : Field.ofValue s.refObject = Field.ofObject s.refObject :=
  s.ofValue_endingObject (by decide) (by decide)

theorem default_defaultObject : (Field.ofValue s.defaultObject).defaultValue =
    jsonText (s.inside.takeWhile (!isQuote ·)) := by
  rw [s.ofValue_defaultObject, Field.ofObject, s.find?_default]
  rfl

end StringLiteral

theorem unquoted_of_find?_ref {cs target : List Char} (h : find? Attribute.ref? cs = some target) :
    ∀ c ∈ target, isQuote c = false := by
  obtain ⟨before, left, rest, -, hread⟩ := exists_read_of_findFrom? h
  obtain ⟨behindLabel, -, hname⟩ := Option.bind_eq_some_iff.1 hread
  exact not_isQuote_of_quoted? (quoted?_of_quotedName? hname)

theorem jsonText_inj {s t : List Char} : jsonText s = jsonText t ↔ s = t := by
  constructor
  · intro h
    exact String.ofList_injective (Json.str.inj h)
  · exact congrArg jsonText

theorem takeWhile_unquoted_iff {cs : List Char} :
    cs.takeWhile (!isQuote ·) = cs ↔ ∀ c ∈ cs, isQuote c = false := by
  constructor
  · intro h c hc
    rw [← h] at hc
    simpa using List.all_eq_true.1 List.all_takeWhile c hc
  · intro h
    have hall : ∀ c ∈ cs, (!isQuote c) = true := by simpa using h
    have happend : (cs ++ []).takeWhile (!isQuote ·) = cs ++ [].takeWhile (!isQuote ·) :=
      List.takeWhile_append_of_pos hall
    simpa using happend

theorem captured_iff (s : StringLiteral) :
    (Field.ofValue s.defaultObject).defaultValue = jsonText (s.inside.takeWhile (!isQuote ·)) ∧
    ((Field.ofValue s.defaultObject).defaultValue = jsonText s.inside ↔
      ∀ c ∈ s.inside, isQuote c = false) ∧
    ((Field.ofValue s.refObject).ref = jsonText s.inside ↔ ∀ c ∈ s.inside, isQuote c = false) := by
  refine ⟨s.default_defaultObject, ?_, ?_⟩
  · rw [s.default_defaultObject, jsonText_inj, takeWhile_unquoted_iff]
  · have href : (Field.ofValue s.refObject).ref =
        ((find? Attribute.ref? s.refObject).map jsonText).getD .null := by
      rw [s.ofValue_refObject, Field.ofObject]
    rw [href]
    constructor
    · intro h
      cases hfound : find? Attribute.ref? s.refObject with
      | none =>
          rw [hfound] at h
          exact absurd h (by simp [jsonText])
      | some target =>
          rw [hfound] at h
          exact jsonText_inj.1 h ▸ unquoted_of_find?_ref hfound
    · intro h
      rw [s.find?_ref_of_unquoted h]
      rfl

def apostrophe : StringLiteral where
  quote := '"'
  inside := "it's".toList
  isQuote_quote := by decide
  nonempty := by decide
  unquoted := by decide
  onOneLine := by decide

theorem apostrophe_cut :
    apostrophe.defaultObject = "\x7b type: String, default: \"it's\" \x7d".toList ∧
      (Field.ofValue apostrophe.defaultObject).defaultValue = jsonText "it".toList ∧
      jsonText "it".toList ≠ jsonText apostrophe.inside := by
  have hcut : apostrophe.inside.takeWhile (!isQuote ·) = "it".toList := by decide
  have hinside : "it".toList ≠ apostrophe.inside := by decide
  refine ⟨by decide, ?_, fun h => hinside (jsonText_inj.1 h)⟩
  rw [apostrophe.default_defaultObject, hcut]

end SchemaDiagram.Written
