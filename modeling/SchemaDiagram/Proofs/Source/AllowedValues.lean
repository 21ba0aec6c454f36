import SchemaDiagram.Proofs.Source.Quotations

/-!
Allowed values, written as strings in a list. The list is parted at its commas, those within a string
included, so that a value is kept whole exactly if it holds none.
-/

namespace SchemaDiagram

open SchemaDiagram.Text

theorem enumItems_append_comma (cs ds : List Char) :
    enumItems (cs ++ ',' :: ds) = enumItems cs ++ enumItems ds := by
  simp only [enumItems, splitAt_append_cons, List.map_append, List.filter_append]

theorem enumItems_blank {c : Char} (h : isBlank c = true) (cs : List Char) :
    enumItems (c :: cs) = enumItems cs := by
  have hcomma : c ≠ ',' := by
    rintro rfl
    exact absurd h (by decide)
  have htrim (piece : List Char) : trim (c :: piece) = trim piece := by
    rw [trim, trimLeft_blank h, ← trim]
  rw [enumItems, enumItems, splitAt, if_neg hcomma]
  cases hpieces : splitAt ',' cs with
  | nil => exact absurd hpieces (splitAt_ne_nil ',' cs)
  | cons piece pieces => simp only [List.map_cons, htrim]

section

variable {l r cs : List Char}

theorem dropWhile_quotes (hl : ∀ c ∈ l, isQuote c = true) (hcs : ∀ c ∈ cs, isQuote c = false)
    (hne : cs ≠ []) : (l ++ (cs ++ r)).dropWhile isQuote = cs ++ r := by
  rw [List.dropWhile_append_of_pos hl]
  cases cs with
  | nil => exact absurd rfl hne
  | cons c cs => simp [hcs c (by simp)]

theorem stripQuotes_around (hl : ∀ c ∈ l, isQuote c = true) (hr : ∀ c ∈ r, isQuote c = true)
    (hcs : ∀ c ∈ cs, isQuote c = false) : stripQuotes (l ++ (cs ++ r)) = cs := by
  have hrreverse : ∀ c ∈ r.reverse, isQuote c = true := fun c hc => hr c (List.mem_reverse.1 hc)
  have hreverse : ∀ c ∈ cs.reverse, isQuote c = false := fun c hc => hcs c (List.mem_reverse.1 hc)
  by_cases hne : cs = []
  · have hall : ∀ c ∈ l ++ ([] ++ r), isQuote c = true := by
      intro c hc
      rcases List.mem_append.1 hc with hc | hc
      · exact hl c hc
      · exact hr c hc
    subst hne
    rw [stripQuotes, ← List.append_nil (l ++ ([] ++ r)), List.dropWhile_append_of_pos hall]
    rfl
  · have hright := dropWhile_quotes (r := []) hrreverse hreverse (by simpa using hne)
    rw [stripQuotes, dropWhile_quotes hl hcs hne, dropRightWhile, List.reverse_append,
      ← List.append_nil cs.reverse, hright, List.append_nil, List.reverse_reverse]

theorem item_around (hl : l = [] ∨ l = ['\'']) (hr : r = [] ∨ r = ['\''])
    (hcs : ∀ c ∈ cs, isQuote c = false) :
    trim (stripQuotes (trim (l ++ (cs ++ r)))) = trim cs := by
  have hquote : ∀ s : List Char, s = [] ∨ s = ['\''] → ∀ c ∈ s, isQuote c = true := by
    rintro s (rfl | rfl)
    · decide
    · decide
  have hstrip {inner : List Char} (hsub : inner ⊆ cs) : stripQuotes (l ++ (inner ++ r)) = inner :=
    stripQuotes_around (hquote l hl) (hquote r hr) fun c hc => hcs c (hsub hc)
  have hfront : trimLeft cs ⊆ cs := (List.dropWhile_suffix isBlank).subset
  have hback {inner : List Char} : trimRight inner ⊆ inner := by
    have hkept := trimRight_prefix inner
    exact hkept.subset
  rcases hl with rfl | rfl
  · rcases hr with rfl | rfl
    · have hinner : trim ([] ++ (cs ++ [])) = [] ++ (trim cs ++ []) := by simp
      have hsub : trim cs ⊆ cs := List.Subset.trans hback hfront
      rw [hinner, hstrip hsub, trim_trim]
    · have hinner : trim ([] ++ (cs ++ ['\''])) = [] ++ (trimLeft cs ++ ['\'']) := by
        rw [List.nil_append, List.nil_append, trim, trimLeft_concat (by decide),
          trimRight_concat (by decide)]
      rw [hinner, hstrip hfront, trim_trimLeft]
  · rcases hr with rfl | rfl
    · have hinner : trim (['\''] ++ (cs ++ [])) = ['\''] ++ (trimRight cs ++ []) := by
        rw [List.append_nil, List.append_nil, List.singleton_append, trim,
          trimLeft_cons (by decide), trimRight_cons_of_not_blank (by decide)]
        rfl
      rw [hinner, hstrip hback, trim_trimRight]
    · have hinner : trim (['\''] ++ (cs ++ ['\''])) = ['\''] ++ (cs ++ ['\'']) :=
        (trimmed_between (by decide) (by decide) cs).trim
      rw [hinner, hstrip (List.Subset.refl cs)]

def commaPieces (cs : List Char) : List (List Char) :=
  ((splitAt ',' cs).map trim).filter (!·.isEmpty)

theorem enumItems_piece (hcomma : ',' ∉ cs) (hcs : ∀ c ∈ cs, isQuote c = false)
    (hl : l = [] ∨ l = ['\'']) (hr : r = [] ∨ r = ['\'']) :
    enumItems (l ++ (cs ++ r)) = [trim cs].filter (!·.isEmpty) := by
  have hmark : ∀ s : List Char, s = [] ∨ s = ['\''] → ',' ∉ s := by
    rintro s (rfl | rfl)
    · simp
    · decide
  have hnone : ∀ c ∈ l ++ (cs ++ r), c ≠ ',' := by
    rintro c hc rfl
    simp [hmark l hl, hmark r hr, hcomma] at hc
  rw [enumItems, splitAt_of_forall_ne hnone, List.map_singleton, item_around hl hr hcs]

theorem enumItems_pieces {pieces : List (List Char)} (hne : pieces ≠ [])
    (hcomma : ∀ piece ∈ pieces, ',' ∉ piece)
    (hquote : ∀ piece ∈ pieces, ∀ c ∈ piece, isQuote c = false) (hl : l = [] ∨ l = ['\''])
    (hr : r = [] ∨ r = ['\'']) :
    enumItems (l ++ (joinWith [','] pieces ++ r)) = (pieces.map trim).filter (!·.isEmpty) := by
  induction pieces generalizing l with
  | nil => exact absurd rfl hne
  | cons piece pieces ih =>
      obtain ⟨hpiece, hpieces⟩ := List.forall_mem_cons.1 hcomma
      obtain ⟨hplain, hplains⟩ := List.forall_mem_cons.1 hquote
      by_cases hlast : pieces = []
      · subst hlast
        exact enumItems_piece hpiece hplain hl hr
      · -- the quote in front stays with the first piece, the one behind with the others
        have htext : l ++ (joinWith [','] (piece :: pieces) ++ r) =
            l ++ (piece ++ []) ++ ',' :: ([] ++ (joinWith [','] pieces ++ r)) := by
          simp [joinWith_cons _ _ hlast]
        rw [htext, enumItems_append_comma, enumItems_piece hpiece hplain hl (.inl rfl),
          ih hlast hpieces hplains (.inl rfl), ← List.filter_append]
        rfl

theorem enumItems_quote (hcs : ∀ c ∈ cs, isQuote c = false) :
    enumItems ('\'' :: cs ++ ['\'']) = commaPieces cs := by
  have hmem {piece : List Char} (hpiece : piece ∈ splitAt ',' cs) : piece ⊆ cs :=
    subset_of_mem_splitAt hpiece
  have hpieces := enumItems_pieces (splitAt_ne_nil ',' cs) (fun _ => notMem_of_mem_splitAt)
    (fun _ hpiece c hc => hcs c (hmem hpiece hc)) (.inr rfl) (.inr rfl)
  rw [joinWith_splitAt] at hpieces
  exact hpieces

end

namespace Written

structure AllowedValue where
  chars : List Char
  nonempty : chars ≠ []
  trimmed : Trimmed chars
  unquoted : ∀ c ∈ chars, isQuote c = false
  unescaped : '\\' ∉ chars
  onOneLine : '\n' ∉ chars
  unclosed : ']' ∉ chars

namespace AllowedValue

variable (v : AllowedValue)

def text : List Char :=
  '\'' :: v.chars ++ ['\'']

def pieces : List (List Char) :=
  commaPieces v.chars

theorem enumItems_text : enumItems v.text = v.pieces :=
  enumItems_quote v.unquoted

end AllowedValue

def valueList (first : AllowedValue) (others : List AllowedValue) : List Char :=
  joinWith separator ((first :: others).map AllowedValue.text)

def framed (front inside back : List Char) : List Char :=
  front ++ inside ++ back

def enumObject (first : AllowedValue) (others : List AllowedValue) : List Char :=
  framed "\x7b type: String, enum: [".toList (valueList first others) "] \x7d".toList

theorem enumItems_valueList (first : AllowedValue) (others : List AllowedValue) :
    enumItems (valueList first others) = (first :: others).flatMap AllowedValue.pieces := by
  rw [valueList, List.map_cons, joinWith_cons_eq, List.flatMap_cons]
  induction others generalizing first with
  | nil =>
      rw [List.map_nil, List.flatMap_nil, List.append_nil, first.enumItems_text]
      exact (List.append_nil _).symm
  | cons next others ih =>
      have htext : first.text ++ ((next :: others).map AllowedValue.text).flatMap (separator ++ ·) =
          first.text ++ ',' :: ' ' :: (next.text ++
            (others.map AllowedValue.text).flatMap (separator ++ ·)) := by
        simp [separator]
      rw [htext, enumItems_append_comma, enumItems_blank (by decide), ih, first.enumItems_text,
        List.flatMap_cons]

theorem AllowedValue.beforeComment?_text (v : AllowedValue) (rest : List Char) :
    beforeComment? .code (v.text ++ rest) = (beforeComment? .code rest).map (v.text ++ ·) := by
  have hquote : '\'' ∉ v.chars := fun h => absurd (v.unquoted '\'' h) (by decide)
  have htext (tail : List Char) : v.text ++ tail = '\'' :: (v.chars ++ '\'' :: tail) := by
    simp [text]
  have hopen : (isQuote '\'' || decide ('\'' = '\x60')) = true := by decide
  simp only [htext, beforeComment?, hopen, if_true,
    beforeComment?_quote hquote v.unescaped (by decide), Option.map_map]
  rfl

theorem beforeComment?_valueList (first : AllowedValue) (others : List AllowedValue)
    {rest : List Char} (hrest : beforeComment? .code rest = none) :
    beforeComment? .code (valueList first others ++ rest) = none := by
  rw [valueList, List.map_cons, joinWith_cons_eq]
  induction others generalizing first with
  | nil => simp [first.beforeComment?_text, hrest]
  | cons next others ih =>
      have htext : first.text ++ ((next :: others).map AllowedValue.text).flatMap (separator ++ ·) ++
          rest = first.text ++ (separator ++ (next.text ++
            (others.map AllowedValue.text).flatMap (separator ++ ·) ++ rest)) := by
        simp
      rw [htext, first.beforeComment?_text, beforeComment?_append (by decide), ih]
      rfl

theorem enumObject_eq_braces (first : AllowedValue) (others : List AllowedValue) :
    enumObject first others =
      '{' :: (" type: String, enum: [".toList ++ valueList first others ++ "] ".toList) ++ ['}'] := by
  have hfront : "\x7b type: String, enum: [".toList = '{' :: " type: String, enum: [".toList := by
    decide
  have hback : "] \x7d".toList = "] ".toList ++ ['}'] := by decide
  rw [enumObject, hfront, hback, framed]
  simp only [List.cons_append, List.append_assoc]

theorem notMem_valueList {c : Char} (hseparator : c ∉ separator) (hquote : c ≠ '\'')
    {first : AllowedValue} {others : List AllowedValue}
    (h : ∀ v ∈ first :: others, c ∉ v.chars) : c ∉ valueList first others := by
  have hall : ∀ d ∈ valueList first others, d ≠ c := by
    refine forall_mem_joinWith (fun d hd => ne_of_mem_of_not_mem hd hseparator) ?_
    intro piece hpiece d hd
    obtain ⟨v, hv, rfl⟩ := List.mem_map.1 hpiece
    rintro rfl
    simp [AllowedValue.text, hquote, h v hv] at hd
  exact fun hmem => hall c hmem rfl

theorem ofValue_enumObject (first : AllowedValue) (others : List AllowedValue) :
    Field.ofValue (enumObject first others) = Field.ofObject (enumObject first others) := by
  have hline : '\n' ∉ enumObject first others := by
    have hvalues : '\n' ∉ valueList first others :=
      notMem_valueList (by decide) (by decide) fun v _ => v.onOneLine
    have hfront : '\n' ∉ "\x7b type: String, enum: [".toList := by decide
    have hback : '\n' ∉ "] \x7d".toList := by decide
    rw [enumObject, framed, List.mem_append, List.mem_append]
    exact fun h => h.elim (fun h => h.elim hfront hvalues) hback
  have hcomment : beforeComment? .code (enumObject first others) = none := by
    rw [enumObject, framed, List.append_assoc, beforeComment?_append (by decide),
      beforeComment?_valueList first others (by decide)]
    rfl
  rw [enumObject_eq_braces] at hline hcomment ⊢
  exact ofValue_of_braces hline hcomment

theorem enumObject_eq_entries (first : AllowedValue) (others : List AllowedValue) :
    enumObject first others = '{' :: ' ' :: ((Value.typeEntry .string).text ++ ',' :: ' ' ::
      ((Entry.mk "enum" ('[' :: valueList first others ++ [']'])).text ++ [' ', '}'])) := by
  have hfront : "\x7b type: String, enum: [".toList = '{' :: ' ' ::
      ((Value.typeEntry .string).text ++ ',' :: ' ' :: ("enum".toList ++ [':', ' ', '['])) := by
    decide
  have hback : "] \x7d".toList = [']', ' ', '}'] := by decide
  rw [enumObject, hfront, hback, framed]
  simp only [Entry.text, List.cons_append, List.append_assoc, List.nil_append]

theorem find?_enumObject (first : AllowedValue) (others : List AllowedValue) :
    find? Attribute.enum? (enumObject first others) = some (valueList first others) := by
  have hne : valueList first others ≠ [] := by
    simp [valueList, joinWith_cons_eq, AllowedValue.text]
  have hclosed : ']' ∉ valueList first others :=
    notMem_valueList (by decide) (by decide) fun v _ => v.unclosed
  have hinside : ∀ c ∈ valueList first others, c ≠ ']' := fun c hc => ne_of_mem_of_not_mem hc hclosed
  have hbody : '[' :: valueList first others ++ [']'] ++ [' ', '}'] =
      '[' :: valueList first others ++ ']' :: [' ', '}'] := by simp
  have hread := items?_append hne hinside [' ', '}']
  rw [← hbody] at hread
  rw [enumObject_eq_entries]
  exact find?_behindType (by decide) (by decide) (by decide) (by simp)
    (trimmed_between (by decide) (by decide) _) hread

namespace AllowedValue

variable (v : AllowedValue)

theorem pieces_of_comma_free (h : ',' ∉ v.chars) : v.pieces = [v.chars] := by
  have hsplit : splitAt ',' v.chars = [v.chars] :=
    splitAt_of_forall_ne fun c hc => ne_of_mem_of_not_mem hc h
  simp [pieces, commaPieces, hsplit, v.trimmed.trim, v.nonempty]

theorem comma_free_of_mem_pieces {piece : List Char} (h : piece ∈ v.pieces) : ',' ∉ piece := by
  obtain ⟨whole, hwhole, rfl⟩ := List.mem_map.1 (List.mem_filter.1 h).1
  rw [mem_trim_iff (by decide)]
  exact notMem_of_mem_splitAt hwhole

end AllowedValue

theorem flatMap_pieces_iff (values : List AllowedValue) :
    values.flatMap AllowedValue.pieces = values.map AllowedValue.chars ↔
      ∀ v ∈ values, ',' ∉ v.chars := by
  constructor
  · intro h v hv
    have hmem : v.chars ∈ values.flatMap AllowedValue.pieces := h ▸ List.mem_map_of_mem hv
    obtain ⟨w, -, hpiece⟩ := List.mem_flatMap.1 hmem
    exact w.comma_free_of_mem_pieces hpiece
  · intro h
    induction values with
    | nil => rfl
    | cons v values ih =>
        obtain ⟨hv, hvalues⟩ := List.forall_mem_cons.1 h
        rw [List.flatMap_cons, v.pieces_of_comma_free hv, ih hvalues]
        rfl

theorem allowedValues_iff (first : AllowedValue) (others : List AllowedValue) :
    (Field.ofValue (enumObject first others)).enumValues =
      some (((first :: others).flatMap AllowedValue.pieces).map jsonText) ∧
    ((Field.ofValue (enumObject first others)).enumValues =
        some ((first :: others).map fun v => jsonText v.chars) ↔
      ∀ v ∈ first :: others, ',' ∉ v.chars) := by
  have hread : (Field.ofValue (enumObject first others)).enumValues =
      some (((first :: others).flatMap AllowedValue.pieces).map jsonText) := by
    rw [ofValue_enumObject, Field.ofObject, find?_enumObject, Option.map_some, enumItems_valueList]
  refine ⟨hread, ?_⟩
  have hwritten : (first :: others).map (fun v => jsonText v.chars) =
      ((first :: others).map AllowedValue.chars).map jsonText := by simp
  rw [hread, hwritten, Option.some_inj, List.map_inj_right fun _ _ => jsonText_inj.1,
    flatMap_pieces_iff]

def commaValue : AllowedValue where
  chars := "a, b".toList
  nonempty := by decide
  trimmed := trimmed_between (by decide) (by decide) ", ".toList
  unquoted := by decide
  unescaped := by decide
  onOneLine := by decide
  unclosed := by decide

theorem commaValue_parted :
    enumObject commaValue [] = "\x7b type: String, enum: ['a, b'] \x7d".toList ∧
      (Field.ofValue (enumObject commaValue [])).enumValues =
        some [jsonText "a".toList, jsonText "b".toList] ∧
      [jsonText "a".toList, jsonText "b".toList] ≠ [jsonText commaValue.chars] := by
  have hpieces : [commaValue].flatMap AllowedValue.pieces = ["a".toList, "b".toList] := by decide
  refine ⟨by decide, ?_, by simp⟩
  rw [ofValue_enumObject, Field.ofObject, find?_enumObject, Option.map_some, enumItems_valueList,
    hpieces]
  rfl

end Written

end SchemaDiagram
