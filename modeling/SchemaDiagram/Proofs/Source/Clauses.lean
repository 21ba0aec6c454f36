import SchemaDiagram.Proofs.Source.Attributes

namespace SchemaDiagram.Written

open SchemaDiagram.Text
open SchemaDiagram.Attribute (labelled)

structure TypePath where
  first : Word
  others : List Word
  short : others.length ≤ 3

def dotted (w : Word) : List Char :=
  '.' :: w.chars

def TypePath.chars (p : TypePath) : List Char :=
  p.first.chars ++ p.others.flatMap dotted

def inDotted (c : Char) : Bool :=
  isWord c || c == '.'

structure DottedWord where
  first : Char
  others : List Char
  isWord_first : isWord first = true
  inDotted_others : ∀ c ∈ others, inDotted c = true

def DottedWord.chars (d : DottedWord) : List Char :=
  d.first :: d.others

theorem isBlank_of_inDotted {c : Char} (h : inDotted c = true) : isBlank c = false := by
  simp only [inDotted, Bool.or_eq_true, beq_iff_eq] at h
  rcases h with h | rfl
  · exact isBlank_of_isWord h
  · decide

theorem ne_of_inDotted {c d : Char} (hc : inDotted c = true) (hd : inDotted d = false) : c ≠ d := by
  rintro rfl
  rw [hc] at hd
  exact absurd hd (by simp)

theorem TypePath.inDotted_chars (p : TypePath) : ∀ c ∈ p.chars, inDotted c = true := by
  have hword (w : Word) : ∀ c ∈ w.chars, inDotted c = true := by
    intro c hc
    simp [inDotted, w.isWord c hc]
  intro c hc
  rcases List.mem_append.1 hc with hc | hc
  · exact hword p.first c hc
  · obtain ⟨w, -, hw⟩ := List.mem_flatMap.1 hc
    rcases List.mem_cons.1 hw with rfl | hw
    · decide
    · exact hword w c hw

theorem DottedWord.inDotted_chars (d : DottedWord) : ∀ c ∈ d.chars, inDotted c = true := by
  intro c hc
  rcases List.mem_cons.1 hc with rfl | hc
  · simp [inDotted, d.isWord_first]
  · exact d.inDotted_others c hc

theorem TypePath.exists_chars_eq (p : TypePath) :
    ∃ c more, isWord c = true ∧ p.chars = c :: more := by
  have hne := p.first.nonempty
  cases hfirst : p.first.chars with
  | nil => exact absurd hfirst hne
  | cons c more =>
      refine ⟨c, more ++ p.others.flatMap dotted, p.first.isWord c (by simp [hfirst]), ?_⟩
      rw [chars, hfirst, List.cons_append]

theorem TypePath.nonempty (p : TypePath) : p.chars ≠ [] := by
  obtain ⟨c, more, -, hchars⟩ := p.exists_chars_eq
  simp [hchars]

theorem TypePath.trimmed (p : TypePath) : Trimmed p.chars :=
  trimmed_of_not_blank fun c hc => isBlank_of_inDotted (p.inDotted_chars c hc)

theorem DottedWord.trimmed (d : DottedWord) : Trimmed d.chars :=
  trimmed_of_not_blank fun c hc => isBlank_of_inDotted (d.inDotted_chars c hc)

inductive Preset where
  | quoted (value : Word)
  | bare (value : DottedWord)

def Preset.chars : Preset → List Char
  | .quoted value => value.chars
  | .bare value => value.chars

inductive Clause where
  | type (isArray : Bool) (path : TypePath)
  | ref (target : Word)
  | required (value : Bool)
  | default (value : Preset)
  | enum (first : Word) (others : List Word)

def typeText : Bool → TypePath → List Char
  | false, path => path.chars
  | true, path => '[' :: path.chars ++ [']']

def truthText : Bool → List Char
  | false => ['f', 'a', 'l', 's', 'e']
  | true => ['t', 'r', 'u', 'e']

def Preset.text : Preset → List Char
  | .quoted value => quotedText value
  | .bare value => value.chars

def quotedList (first : Word) (others : List Word) : List Char :=
  joinWith separator ((first :: others).map quotedText)

namespace Clause

def entry : Clause → Entry
  | .type isArray path => ⟨"type", typeText isArray path⟩
  | .ref target => ⟨"ref", quotedText target⟩
  | .required value => ⟨"required", truthText value⟩
  | .default value => ⟨"default", value.text⟩
  | .enum first others => ⟨"enum", '[' :: quotedList first others ++ [']']⟩

def text (c : Clause) : List Char :=
  c.entry.text

def path? : Clause → Option (List Char)
  | .type _ path => some path.chars
  | _ => none

def isArray : Clause → Bool
  | .type isArray _ => isArray
  | _ => false

def isRequired : Clause → Bool
  | .required value => value
  | _ => false

def ref? : Clause → Option (List Char)
  | .ref target => some target.chars
  | _ => none

def default? : Clause → Option (List Char)
  | .default value => some value.chars
  | _ => none

def items? : Clause → Option (List Char)
  | .enum first others => some (quotedList first others)
  | _ => none

def enum? : Clause → Option (List (List Char))
  | .enum first others => some ((first :: others).map Word.chars)
  | _ => none

end Clause

/-- Of a clause that is given more than once the first one counts. -/
def fieldOf (clauses : List Clause) : Field :=
  { name := ""
    type := match clauses.findSome? Clause.path?, clauses.findSome? Clause.ref? with
      | some path, _ => .coerce path
      | none, some _ => .objectId
      | none, none => .mixed
    required := clauses.any Clause.isRequired
    isArray := clauses.any Clause.isArray
    ref := ((clauses.findSome? Clause.ref?).map jsonText).getD .null
    defaultValue := ((clauses.findSome? Clause.default?).map jsonText).getD .null
    enumValues := (clauses.findSome? Clause.enum?).map fun values => values.map jsonText }

def inBody (c : Char) : Bool :=
  isWord c || [' ', ',', '\'', '[', ']'].contains c

theorem ne_of_inBody {c d : Char} (hc : inBody c = true) (hd : inBody d = false) : c ≠ d := by
  rintro rfl
  rw [hc] at hd
  exact absurd hd (by simp)

theorem inBody_of_isWord {c : Char} (h : isWord c = true) : inBody c = true := by
  simp [inBody, h]

theorem inBody_quotedText (w : Word) : ∀ c ∈ quotedText w, inBody c = true := by
  intro c hc
  simp only [quotedText, List.cons_append, List.mem_cons, List.mem_append,
    List.not_mem_nil, or_false] at hc
  rcases hc with rfl | hc | rfl
  · rfl
  · exact inBody_of_isWord (w.isWord c hc)
  · rfl

theorem inBody_quotedList (first : Word) (others : List Word) :
    ∀ c ∈ quotedList first others, inBody c = true := by
  refine forall_mem_joinWith (by decide) ?_
  intro piece hpiece
  obtain ⟨w, -, rfl⟩ := List.mem_map.1 hpiece
  exact inBody_quotedText w

theorem forall_mem_bracketed {p : Char → Prop} {cs : List Char} (hopen : p '[') (hclose : p ']')
    (h : ∀ c ∈ cs, p c) : ∀ c ∈ '[' :: cs ++ [']'], p c := by
  intro c hc
  simp only [List.cons_append, List.mem_cons, List.mem_append, List.not_mem_nil, or_false] at hc
  rcases hc with rfl | hc | rfl
  · exact hopen
  · exact h c hc
  · exact hclose

theorem trimmed_quotedText (w : Word) : Trimmed (quotedText w) :=
  trimmed_between (by decide) (by decide) w.chars

theorem Clause.isWord_label (c : Clause) : ∀ d ∈ c.entry.label.toList, isWord d = true := by
  have hall : ∀ label ∈ ["type", "ref", "required", "default", "enum"], ∀ d ∈ label.toList,
      isWord d = true := by decide
  cases c with
  | type => exact hall "type" (by simp)
  | ref => exact hall "ref" (by simp)
  | required => exact hall "required" (by simp)
  | default => exact hall "default" (by simp)
  | enum => exact hall "enum" (by simp)

theorem Clause.trimmed_body (c : Clause) : Trimmed c.entry.body := by
  cases c with
  | type isArray path =>
      cases isArray with
      | false => exact path.trimmed
      | true => exact trimmed_between (by decide) (by decide) _
  | ref target => exact trimmed_quotedText target
  | required value => cases value <;> exact trimmed_of_word (by decide)
  | default value =>
      cases value with
      | quoted value => exact trimmed_quotedText value
      | bare value => exact value.trimmed
  | enum first others => exact trimmed_between (by decide) (by decide) _

theorem Clause.nonempty_body (c : Clause) : c.entry.body ≠ [] := by
  cases c with
  | type isArray path =>
      cases isArray with
      | false => exact path.nonempty
      | true => simp [entry, typeText]
  | ref target => simp [entry, quotedText]
  | required value => cases value <;> simp [entry, truthText]
  | default value => cases value <;> simp [entry, Preset.text, quotedText, DottedWord.chars]
  | enum first others => simp [entry]

theorem Clause.notMem_body (c : Clause) {d : Char} (hdotted : inDotted d = false)
    (hbody : inBody d = false) : d ∉ c.entry.body := by
  have hdots {cs : List Char} (h : ∀ e ∈ cs, inDotted e = true) : ∀ e ∈ cs, e ≠ d :=
    fun e he => ne_of_inDotted (h e he) hdotted
  have hbodies {cs : List Char} (h : ∀ e ∈ cs, inBody e = true) : ∀ e ∈ cs, e ≠ d :=
    fun e he => ne_of_inBody (h e he) hbody
  have hopen : '[' ≠ d := ne_of_inBody (by decide) hbody
  have hclose : ']' ≠ d := ne_of_inBody (by decide) hbody
  have htruth (value : Bool) : ∀ e ∈ truthText value, inDotted e = true := by
    cases value <;> decide
  have hall : ∀ e ∈ c.entry.body, e ≠ d := by
    cases c with
    | type isArray path =>
        cases isArray with
        | false => exact hdots path.inDotted_chars
        | true => exact forall_mem_bracketed hopen hclose (hdots path.inDotted_chars)
    | ref target => exact hbodies (inBody_quotedText target)
    | required value => exact hdots (htruth value)
    | default value =>
        cases value with
        | quoted value => exact hbodies (inBody_quotedText value)
        | bare value => exact hdots value.inDotted_chars
    | enum first others =>
        exact forall_mem_bracketed hopen hclose (hbodies (inBody_quotedList first others))
  exact fun hmem => hall d hmem rfl

theorem plain_clause (c : Clause) : c.entry.Plain where
  label_nonempty := by cases c <;> simp [Clause.entry]
  label_isWord := c.isWord_label
  body_nonempty := c.nonempty_body
  body_trimmed := c.trimmed_body
  body_quiet := by
    intro d hd
    simp only [beq_eq_false_iff_ne]
    rintro rfl
    exact c.notMem_body (by decide) (by decide) hd

theorem quotedName?_quotedText (w : Word) (rest : List Char) :
    quotedName? (quotedText w ++ rest) = some (w.chars, rest) := by
  have htext : quotedText w ++ rest = '\'' :: w.chars ++ '\'' :: rest := by simp [quotedText]
  rw [htext]
  exact quotedName?_append (by decide) (by decide) w.nonempty w.not_isQuote

theorem quoted?_quotedText (w : Word) (rest : List Char) :
    quoted? (quotedText w ++ rest) = some (w.chars, rest) := by
  have htext : quotedText w ++ rest = '\'' :: w.chars ++ '\'' :: rest := by simp [quotedText]
  rw [htext]
  exact quoted?_append (by decide) (by decide) w.not_isQuote

theorem items?_append {inside : List Char} (hne : inside ≠ []) (h : ∀ c ∈ inside, c ≠ ']')
    (rest : List Char) :
    Attribute.items? ('[' :: inside ++ ']' :: rest) = some (inside, rest) := by
  have htake : (inside ++ ']' :: rest).takeWhile (· != ']') = inside := by
    rw [List.takeWhile_append_of_pos (by simpa using h)]
    simp
  have hdrop : (inside ++ ']' :: rest).dropWhile (· != ']') = ']' :: rest := by
    rw [List.dropWhile_append_of_pos (by simpa using h)]
    simp
  have hopen : literal? "[" ('[' :: (inside ++ ']' :: rest)) = some (inside ++ ']' :: rest) := rfl
  have hclose : literal? "]" (']' :: rest) = some rest := rfl
  have hsome : inside.isEmpty = false := List.isEmpty_eq_false_iff.2 hne
  rw [List.cons_append, Attribute.items?, hopen]
  simp only [Option.bind_eq_bind, Option.bind_some, htake, hsome, hdrop, hclose]
  rfl

theorem trim_quotedText (w : Word) : trim (quotedText w) = quotedText w :=
  (trimmed_quotedText w).trim

theorem stripQuotes_quotedText (w : Word) : stripQuotes (quotedText w) = w.chars := by
  have hleft : (quotedText w).dropWhile isQuote = w.chars ++ ['\''] := by
    have hw := w.not_isQuote
    have hne := w.nonempty
    cases hchars : w.chars with
    | nil => exact absurd hchars hne
    | cons c cs =>
        have hc := hw c (by simp [hchars])
        have hquote : isQuote '\'' = true := by decide
        simp [quotedText, hchars, hc, hquote]
  have hright : dropRightWhile isQuote (w.chars ++ ['\'']) = w.chars := by
    have hw := w.not_isQuote
    have hne := w.nonempty
    obtain ⟨init, c, hchars⟩ : ∃ init c, w.chars = init ++ [c] :=
      ⟨w.chars.dropLast, w.chars.getLast hne, (List.dropLast_concat_getLast hne).symm⟩
    have hc := hw c (by simp [hchars])
    have hquote : isQuote '\'' = true := by decide
    simp [dropRightWhile, hchars, hc, hquote]
  rw [stripQuotes, hleft, hright]

theorem quotedText_ne_comma (w : Word) : ∀ c ∈ quotedText w, c ≠ ',' := by
  intro c hc
  simp only [quotedText, List.cons_append, List.mem_cons, List.mem_append,
    List.not_mem_nil, or_false] at hc
  rcases hc with rfl | hc | rfl
  · decide
  · exact ne_of_isWord (w.isWord c hc) (by decide)
  · decide

theorem splitAt_flatMap_quoted {piece : List Char} (hpiece : ∀ c ∈ piece, c ≠ ',')
    (ws : List Word) :
    Text.splitAt ',' (piece ++ (ws.map quotedText).flatMap (separator ++ ·)) =
      piece :: ws.map fun w => ' ' :: quotedText w := by
  induction ws generalizing piece with
  | nil => simpa using splitAt_of_forall_ne hpiece
  | cons w ws ih =>
      -- The blank of the separator stays with the piece behind it.
      have hspaced : ∀ c ∈ ' ' :: quotedText w, c ≠ ',' := by
        intro c hc
        rcases List.mem_cons.1 hc with rfl | hc
        · decide
        · exact quotedText_ne_comma w c hc
      have hrest := ih hspaced
      simp only [List.map_cons, List.flatMap_cons, separator, List.cons_append,
        List.nil_append] at hrest ⊢
      rw [splitAt_append hpiece, hrest]

theorem splitAt_quoted (w : Word) (ws : List Word) :
    Text.splitAt ',' (joinWith separator ((w :: ws).map quotedText)) =
      quotedText w :: ws.map fun w => ' ' :: quotedText w := by
  rw [List.map_cons, joinWith_cons_eq]
  exact splitAt_flatMap_quoted (quotedText_ne_comma w) ws

theorem enumItems_quoted (w : Word) (ws : List Word) :
    enumItems (joinWith separator ((w :: ws).map quotedText)) = (w :: ws).map Word.chars := by
  have hitem (w : Word) : trim (stripQuotes (trim (quotedText w))) = w.chars := by
    rw [trim_quotedText, stripQuotes_quotedText, w.trimmed.trim]
  have hspaced (w : Word) : trim (stripQuotes (trim (' ' :: quotedText w))) = w.chars := by
    have hblank : trim (' ' :: quotedText w) = trim (quotedText w) := by
      rw [trim, trimLeft_blank (by decide), ← trim]
    rw [hblank, hitem]
  have hfilter (ws : List Word) : (ws.map Word.chars).filter (!·.isEmpty) = ws.map Word.chars := by
    refine List.filter_eq_self.2 fun cs hcs => ?_
    obtain ⟨w, -, rfl⟩ := List.mem_map.1 hcs
    simpa using w.nonempty
  have hmap : (ws.map fun w => ' ' :: quotedText w).map
      (fun piece => trim (stripQuotes (trim piece))) = ws.map Word.chars := by
    simp [hspaced]
  rw [enumItems, splitAt_quoted, List.map_cons, hitem, hmap, ← List.map_cons]
  exact hfilter (w :: ws)

def valueOf {α : Type} (read : List Char → Option (α × List Char)) (a : Entry) : Option α :=
  (read a.body).map Prod.fst

section

variable {α : Type} {name : String} {read : List Char → Option (α × List Char)}
  {of : Clause → Option α}

theorem find?_clauses (hne : name.toList ≠ []) (hname : ∀ c ∈ name.toList, isWord c = true)
    (hread : ∀ c : Clause, (∀ rest, closing rest →
        (read (c.entry.body ++ rest)).map Prod.fst = of c) ∧ c.entry.label = name ∨
      c.entry.label ≠ name ∧ of c = none) (clauses : List Clause) :
    find? (labelled name read) (objectText (clauses.map Clause.text)) = clauses.findSome? of := by
  have hvalue (c : Clause)
      (h : ∀ rest, closing rest → (read (c.entry.body ++ rest)).map Prod.fst = of c) :
      valueOf read c.entry = of c := by
    simpa [valueOf] using h [] (.inl rfl)
  have hreads (c : Clause) : Reads name read (valueOf read) c.entry := by
    intro hlabel rest hrest
    rcases hread c with ⟨h, -⟩ | ⟨h, -⟩
    · rw [h rest hrest, hvalue c h]
    · exact absurd hlabel h
  have hunder (c : Clause) : under name (valueOf read) c.entry = of c := by
    rcases hread c with ⟨h, hlabel⟩ | ⟨hlabel, hnone⟩
    · rw [under, if_pos hlabel, hvalue c h]
    · rw [under, if_neg hlabel, hnone]
  have hplain : ∀ a ∈ clauses.map Clause.entry, a.Plain := by
    intro a ha
    obtain ⟨c, -, rfl⟩ := List.mem_map.1 ha
    exact plain_clause c
  have hall : ∀ a ∈ clauses.map Clause.entry, Reads name read (valueOf read) a := by
    intro a ha
    obtain ⟨c, -, rfl⟩ := List.mem_map.1 ha
    exact hreads c
  have hfind := find?_objectText hplain hall hne hname
  rw [List.map_map, List.findSome?_map] at hfind
  exact hfind.trans (congrArg (clauses.findSome? ·) (funext hunder))

theorem isSome_findSome?_flag {β : Type} (p : β → Bool) (xs : List β) :
    (xs.findSome? fun x => if p x then some () else none).isSome = xs.any p := by
  induction xs with
  | nil => rfl
  | cons x xs ih =>
      rw [findSome?_cons_eq_or, Option.isSome_or, ih, List.any_cons]
      cases p x <;> rfl

end

theorem endsAtWord_dotted (ws : List Word) {rest : List Char} (hend : endsAtWord rest = true) :
    endsAtWord (ws.flatMap dotted ++ rest) = true := by
  cases ws with
  | nil => exact hend
  | cons w ws => rfl

theorem dottedWords_append (ws : List Word) (fuel : Nat) {rest : List Char}
    (hend : endsAtWord rest = true) (hdot : ∀ more, rest ≠ '.' :: more) :
    Attribute.dottedWords fuel (ws.flatMap dotted ++ rest) =
      ((ws.take fuel).flatMap dotted, (ws.drop fuel).flatMap dotted ++ rest) := by
  induction ws generalizing fuel with
  | nil =>
      rw [List.take_nil, List.drop_nil]
      unfold Attribute.dottedWords
      split
      · next h => exact absurd h (hdot _)
      · rfl
  | cons w ws ih =>
      cases fuel with
      | zero => rfl
      | succ fuel =>
          have htext : (w :: ws).flatMap dotted ++ rest =
              '.' :: (w.chars ++ (ws.flatMap dotted ++ rest)) := by simp [dotted]
          rw [htext, Attribute.dottedWords,
            word?_append w.nonempty w.isWord (endsAtWord_dotted ws hend)]
          simp [ih, dotted]

theorem path?_words (first : Word) (others : List Word) {rest : List Char}
    (hend : endsAtWord rest = true) (hdot : ∀ more, rest ≠ '.' :: more) :
    Attribute.path? (first.chars ++ others.flatMap dotted ++ rest) =
      some (first.chars ++ (others.take 3).flatMap dotted,
        (others.drop 3).flatMap dotted ++ rest) := by
  rw [List.append_assoc, Attribute.path?,
    word?_append first.nonempty first.isWord (endsAtWord_dotted others hend)]
  simp [dottedWords_append others 3 hend hdot]

theorem TypePath.path?_append (p : TypePath) {rest : List Char} (hend : endsAtWord rest = true)
    (hdot : ∀ more, rest ≠ '.' :: more) :
    Attribute.path? (p.chars ++ rest) = some (p.chars, rest) := by
  rw [chars, path?_words p.first p.others hend hdot, List.take_of_length_le p.short,
    List.drop_of_length_le p.short]
  rfl

theorem closing.ne_dot {rest : List Char} (h : closing rest) (more : List Char) :
    rest ≠ '.' :: more := by
  rcases h with rfl | rfl | ⟨tail, rfl⟩ <;> simp

theorem TypePath.trimLeft_append (p : TypePath) (rest : List Char) :
    trimLeft (p.chars ++ rest) = p.chars ++ rest :=
  p.trimmed.trimLeft_append p.nonempty rest

theorem TypePath.literal?_bracket (p : TypePath) (rest : List Char) :
    literal? "[" (p.chars ++ rest) = none := by
  obtain ⟨c, more, hc, hchars⟩ := p.exists_chars_eq
  refine Option.eq_none_iff_forall_ne_some.2 fun left h => ?_
  rw [literal?_eq_some_iff, hchars] at h
  exact ne_of_isWord hc (d := '[') (by decide) (List.cons.inj h).1.symm

theorem quoted?_of_isWord {c : Char} (h : isWord c = true) (cs : List Char) :
    quoted? (c :: cs) = none := by
  simp [quoted?, quote?, isQuote_of_isWord h]

theorem DottedWord.bareDefault?_append (d : DottedWord) {rest : List Char} (h : closing rest) :
    Attribute.bareDefault? (d.chars ++ rest) = some (d.chars, rest) := by
  have htake : (d.chars ++ rest).takeWhile inDotted = d.chars := by
    rw [List.takeWhile_append_of_pos d.inDotted_chars]
    rcases h with rfl | rfl | ⟨more, rfl⟩
    · simp
    · simp [show inDotted ' ' = false by decide]
    · simp [show inDotted ',' = false by decide]
  have hdrop : (d.chars ++ rest).dropWhile inDotted = rest := by
    rw [List.dropWhile_append_of_pos d.inDotted_chars]
    rcases h with rfl | rfl | ⟨more, rfl⟩
    · rfl
    · rfl
    · rfl
  have hsign : d.first ≠ '-' := ne_of_isWord d.isWord_first (by decide)
  rw [chars, List.cons_append] at htake hdrop ⊢
  unfold Attribute.bareDefault?
  split
  next sign left hsplit =>
    split at hsplit
    · next hminus => exact absurd (List.cons.inj hminus).1 hsign
    · obtain ⟨rfl, rfl⟩ := Prod.mk.inj hsplit
      simp only [d.isWord_first, if_true]
      exact congrArg some (Prod.ext htake hdrop)

theorem find?_path (clauses : List Clause) :
    find? Attribute.type? (objectText (clauses.map Clause.text)) =
      clauses.findSome? Clause.path? := by
  refine find?_clauses (by decide) (by decide) (fun c => ?_) clauses
  cases c with
  | type isArray path =>
      refine .inl ⟨fun rest hrest => ?_, rfl⟩
      cases isArray with
      | false =>
          rw [Clause.entry, typeText, dropLiteral_of_none (path.literal?_bracket rest),
            path.trimLeft_append, path.path?_append hrest.endsAtWord hrest.ne_dot]
          rfl
      | true =>
          have hbody : typeText true path ++ rest = '[' :: (path.chars ++ ']' :: rest) := by
            simp [typeText]
          have hdrop : dropLiteral "[" ('[' :: (path.chars ++ ']' :: rest)) =
              path.chars ++ ']' :: rest := rfl
          rw [Clause.entry, hbody, hdrop, path.trimLeft_append, path.path?_append rfl (by simp)]
          rfl
  | _ => exact .inr ⟨by simp [Clause.entry], rfl⟩

theorem find?_arrayType (clauses : List Clause) :
    (find? Attribute.arrayType? (objectText (clauses.map Clause.text))).isSome =
      clauses.any Clause.isArray := by
  rw [← isSome_findSome?_flag]
  refine congrArg Option.isSome (find?_clauses (by decide) (by decide) (fun c => ?_) clauses)
  cases c with
  | type isArray path =>
      refine .inl ⟨fun rest _ => ?_, rfl⟩
      cases isArray with
      | false =>
          rw [Clause.entry, typeText, path.literal?_bracket]
          rfl
      | true => rfl
  | _ => exact .inr ⟨by simp [Clause.entry], rfl⟩

theorem find?_required (clauses : List Clause) :
    (find? Attribute.required? (objectText (clauses.map Clause.text))).isSome =
      clauses.any Clause.isRequired := by
  rw [← isSome_findSome?_flag]
  refine congrArg Option.isSome (find?_clauses (by decide) (by decide) (fun c => ?_) clauses)
  cases c with
  | required value =>
      refine .inl ⟨fun rest hrest => ?_, rfl⟩
      cases value with
      | false => rfl
      | true =>
          rcases hrest with rfl | rfl | ⟨more, rfl⟩
          · rfl
          · rfl
          · rfl
  | _ => exact .inr ⟨by simp [Clause.entry], rfl⟩

theorem find?_ref (clauses : List Clause) :
    find? Attribute.ref? (objectText (clauses.map Clause.text)) =
      clauses.findSome? Clause.ref? := by
  refine find?_clauses (by decide) (by decide) (fun c => ?_) clauses
  cases c with
  | ref target =>
      refine .inl ⟨fun rest _ => ?_, rfl⟩
      rw [Clause.entry, quotedName?_quotedText]
      rfl
  | _ => exact .inr ⟨by simp [Clause.entry], rfl⟩

theorem find?_default (clauses : List Clause) :
    find? Attribute.default? (objectText (clauses.map Clause.text)) =
      clauses.findSome? Clause.default? := by
  refine find?_clauses (by decide) (by decide) (fun c => ?_) clauses
  cases c with
  | default value =>
      refine .inl ⟨fun rest hrest => ?_, rfl⟩
      cases value with
      | quoted value =>
          rw [Clause.entry, Preset.text, quoted?_quotedText]
          rfl
      | bare value =>
          have hunquoted : quoted? (value.chars ++ rest) = none :=
            quoted?_of_isWord value.isWord_first (value.others ++ rest)
          rw [Clause.entry, Preset.text, hunquoted, Option.orElse_none,
            value.bareDefault?_append hrest]
          rfl
  | _ => exact .inr ⟨by simp [Clause.entry], rfl⟩

theorem find?_items (clauses : List Clause) :
    find? Attribute.enum? (objectText (clauses.map Clause.text)) =
      clauses.findSome? Clause.items? := by
  refine find?_clauses (by decide) (by decide) (fun c => ?_) clauses
  cases c with
  | enum first others =>
      refine .inl ⟨fun rest _ => ?_, rfl⟩
      have hne : quotedList first others ≠ [] := by
        simp [quotedList, joinWith_cons_eq, quotedText]
      have hinside : ∀ c ∈ quotedList first others, c ≠ ']' := by
        refine forall_mem_joinWith (by decide) fun piece hpiece c hc => ?_
        obtain ⟨w, -, rfl⟩ := List.mem_map.1 hpiece
        simp only [quotedText, List.cons_append, List.mem_cons, List.mem_append,
          List.not_mem_nil, or_false] at hc
        rcases hc with rfl | hc | rfl
        · decide
        · exact ne_of_isWord (w.isWord c hc) (by decide)
        · decide
      have hbody : '[' :: quotedList first others ++ [']'] ++ rest =
          '[' :: quotedList first others ++ ']' :: rest := by simp
      rw [Clause.entry, hbody, items?_append hne hinside]
      rfl
  | _ => exact .inr ⟨by simp [Clause.entry], rfl⟩

theorem find?_enum (clauses : List Clause) :
    (find? Attribute.enum? (objectText (clauses.map Clause.text))).map enumItems =
      clauses.findSome? Clause.enum? := by
  have hitems (c : Clause) : c.items?.map enumItems = c.enum? := by
    cases c with
    | enum first others => exact congrArg some (enumItems_quoted first others)
    | _ => rfl
  rw [find?_items, List.map_findSome?]
  exact congrArg (clauses.findSome? ·) (funext hitems)

theorem ofObject_clauses (clauses : List Clause) :
    Field.ofObject (objectText (clauses.map Clause.text)) = fieldOf clauses := by
  have henum : (find? Attribute.enum? (objectText (clauses.map Clause.text))).map
      (fun inside => (enumItems inside).map jsonText) =
        (clauses.findSome? Clause.enum?).map fun values => values.map jsonText := by
    rw [← find?_enum, Option.map_map]
    rfl
  rw [fieldOf, ← find?_path, ← find?_arrayType, ← find?_ref, ← find?_default, ← find?_required,
    ← henum]
  rfl

end SchemaDiagram.Written
