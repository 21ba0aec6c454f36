import SchemaDiagram.Proofs.Source.Declarations

namespace SchemaDiagram

open SchemaDiagram.Text

def Unbroken (cs : List Char) : Prop :=
  ∀ c ∈ cs, c ≠ ';'

namespace Unbroken

variable {cs ds left : List Char}

theorem append (hcs : Unbroken cs) (hds : Unbroken ds) : Unbroken (cs ++ ds) := by
  intro c hc
  rcases List.mem_append.1 hc with hc | hc
  · exact hcs c hc
  · exact hds c hc

theorem cons {c : Char} (hc : c ≠ ';') (hcs : Unbroken cs) : Unbroken (c :: cs) := by
  intro d hd
  rcases List.mem_cons.1 hd with rfl | hd
  · exact hc
  · exact hcs d hd

theorem word (h : ∀ c ∈ cs, isWord c = true) : Unbroken cs :=
  fun c hc => ne_of_isWord (h c hc) (by decide)

theorem blanks (h : cs.all isBlank = true) : Unbroken cs := by
  intro c hc
  have hblank := List.all_eq_true.1 h c hc
  rintro rfl
  exact absurd hblank (by decide)

theorem of_trimLeft (h : Unbroken (trimLeft cs)) : Unbroken cs := by
  obtain ⟨gap, hgap, hsplit⟩ := exists_blanks cs
  rw [hsplit]
  exact (blanks (List.all_eq_true.2 hgap)).append h

theorem of_literal? {word : String} (hword : Unbroken word.toList)
    (hread : literal? word cs = some left) (hleft : Unbroken left) : Unbroken cs := by
  rw [literal?_eq_some_iff] at hread
  rw [← hread]
  exact hword.append hleft

end Unbroken

namespace Binding

theorem unbroken_of_isTypeAnnotation {cs : List Char} (h : isTypeAnnotation cs = true) :
    Unbroken cs := by
  intro c hc
  rcases mem_trim hc with hblank | hcore
  · rintro rfl
    exact absurd hblank (by decide)
  · have hsome : (trim cs).isEmpty = false := by
      cases hempty : trim cs with
      | nil => simp [hempty] at hcore
      | cons d ds => rfl
    simp only [ isTypeAnnotation, hsome, Bool.false_eq_true, if_false] at h
    rintro rfl
    exact absurd (List.all_eq_true.1 h _ hcore) (by decide)

theorem unbroken_of_endsBinding {cs : List Char} (h : endsBinding cs = true) : Unbroken cs := by
  refine .of_trimLeft ?_
  unfold endsBinding at h
  split at h
  · next rest htrim =>
      rw [htrim]
      exact .cons (by decide) (.blanks h)
  · next rest htrim =>
      rw [Bool.and_eq_true] at h
      obtain ⟨htype, hvalue⟩ := h
      have hafter : Unbroken (rest.dropWhile (· != '=')) := by
        split at hvalue
        · exact absurd hvalue (by simp)
        · next d blanks hdrop =>
            have hd : d = '=' := by
              have hhead := List.head?_dropWhile_not (· != '=') rest
              simpa [hdrop] using hhead
            rw [hdrop, hd]
            exact .cons (by decide) (.blanks hvalue)
      have hbefore : Unbroken (rest.takeWhile (· != '=')) := unbroken_of_isTypeAnnotation htype
      rw [htrim, ← List.takeWhile_append_dropWhile (p := (· != '=')) (l := rest)]
      exact .cons (by decide) (hbefore.append hafter)
  · exact absurd h (by simp)

theorem unbroken_of_variableBehind? {cs name : List Char} (h : variableBehind? cs = some name) :
    Unbroken cs := by
  simp only [variableBehind?, Option.bind_eq_bind, Option.bind_eq_some_iff] at h
  obtain ⟨behindBlanks, hblanks, ⟨found, rest⟩, hword, h⟩ := h
  obtain ⟨hsplit, -⟩ := word?_eq_some hword
  have hname : Unbroken found := .word (List.all_eq_true.1 (isWord_of_word? hword))
  refine .of_trimLeft ?_
  rw [← blanks1?_eq_some hblanks, ← hsplit]
  split at h
  · next hends => exact hname.append (unbroken_of_endsBinding hends)
  · exact absurd h (by simp)

theorem unbroken_of_declarator {cs left : List Char}
    (hread : declarators.findSome? (fun w => literal? w cs) = some left)
    (hleft : Unbroken left) : Unbroken cs := by
  obtain ⟨word, hmem, hword⟩ := List.exists_of_findSome?_eq_some hread
  have hplain : Unbroken word.toList := by
    simp only [declarators, List.mem_cons, List.not_mem_nil, or_false] at hmem
    refine .word ?_
    rcases hmem with rfl | rfl | rfl <;> decide
  exact .of_literal? hplain hword hleft

theorem unbroken_of_lastBlank {rest : List Char}
    (h : Unbroken (rest.drop (rest.length - (trimLeft rest).length - 1))) : Unbroken rest := by
  -- Of the blanks behind a keyword at most one is kept for the variable.
  obtain ⟨gap, -, hsplit⟩ := exists_blanks rest
  have hgap : rest.length - (trimLeft rest).length = gap.length := by
    have hlength := congrArg List.length hsplit
    rw [List.length_append] at hlength
    omega
  refine .of_trimLeft fun c hc => h c ?_
  have hbody : c ∈ rest.drop gap.length := by
    rw [hsplit, List.drop_left]
    exact hc
  rw [hgap]
  exact List.drop_subset_drop_left rest (by omega) hbody

theorem unbroken_of_keywordEnds {cs left : List Char} (hmem : left ∈ keywordEnds cs)
    (hleft : Unbroken left) : Unbroken cs := by
  unfold keywordEnds at hmem
  split at hmem
  · next rest hread =>
      obtain rfl := List.mem_singleton.1 hmem
      exact unbroken_of_declarator hread hleft
  · split at hmem
    · simp at hmem
    · next rest hexport =>
        refine .of_literal? (.word (by decide)) hexport ?_
        simp only [List.mem_append] at hmem
        rcases hmem with hmem | hmem
        · split at hmem
          · next behind hsecond =>
              split at hmem
              · simp at hmem
              · obtain rfl := List.mem_singleton.1 hmem
                exact .of_trimLeft (unbroken_of_declarator hsecond hleft)
          · simp at hmem
        · split at hmem
          · obtain rfl := List.mem_singleton.1 hmem
            exact unbroken_of_lastBlank hleft
          · simp at hmem

theorem unbroken_of_binding? {before : Option Char} {cs : List Char}
    {found : List Char × List Char} (h : binding? before cs = some found) : Unbroken cs := by
  unfold binding? at h
  split at h
  · obtain ⟨name, hname, -⟩ := Option.map_eq_some_iff.1 h
    obtain ⟨left, hmem, hvariable⟩ := List.exists_of_findSome?_eq_some hname
    exact unbroken_of_keywordEnds hmem (unbroken_of_variableBehind? hvariable)
  · exact absurd h (by simp)

theorem slice_append {before binding : List Char} {low : Nat} (hlow : low ≤ before.length)
    (rest : List Char) :
    slice (before ++ (binding ++ rest)) low ((before.length + binding.length : Nat) : Int) =
      before.drop low ++ binding := by
  have htake : (before ++ (binding ++ rest)).take (before.length + binding.length) =
      before ++ binding := by
    rw [← List.append_assoc, ← List.length_append, List.take_left]
  have hhigh : ¬ ((before.length + binding.length : Nat) : Int) < 0 := by omega
  rw [slice, if_neg hhigh, Int.toNat_natCast, htake, List.drop_append_of_le_length hlow]

end Binding

namespace Written

open SchemaDiagram.Binding

theorem binding?_binding (s : Schema) {before : Option Char} (h : startsWord before = true) :
    binding? before s.binding = some (s.var.chars, []) := by
  have hkeyword : keywordEnds s.binding = [' ' :: (s.var.chars ++ [' ', '=', ' '])] := rfl
  have htrim : trimLeft (s.var.chars ++ [' ', '=', ' ']) = s.var.chars ++ [' ', '=', ' '] :=
    s.var.trimmed.trimLeft_append s.var.nonempty _
  have hblanks : blanks1? (' ' :: (s.var.chars ++ [' ', '=', ' '])) =
      some (s.var.chars ++ [' ', '=', ' ']) := by
    rw [blanks1?, if_pos (by decide), htrim]
  have hvar : word? (s.var.chars ++ [' ', '=', ' ']) = some (s.var.chars, [' ', '=', ' ']) :=
    word?_append s.var.nonempty s.var.isWord rfl
  have hends : endsBinding [' ', '=', ' '] = true := by decide
  have hvariable : variableBehind? (' ' :: (s.var.chars ++ [' ', '=', ' '])) =
      some s.var.chars := by
    simp [variableBehind?, hblanks, hvar, hends]
  simp [binding?, h, hkeyword, hvariable]

theorem binding?_earlier {p init binding : List Char} (hp : p <:+ init ++ [';', '\n'])
    (hne : p ≠ []) (before : Option Char) : binding? before (p ++ binding) = none := by
  refine Option.eq_none_iff_forall_ne_some.2 fun found h => ?_
  have htext : init ++ [';', '\n'] = (init ++ [';']) ++ ['\n'] := by simp
  rw [htext, List.suffix_concat_iff] at hp
  -- The line break alone starts no keyword, and any other place has a semicolon behind it.
  rcases hp with rfl | ⟨q, rfl, hq⟩
  · exact hne rfl
  · rcases List.suffix_concat_iff.1 hq with rfl | ⟨r, rfl, -⟩
    · have hkeyword : keywordEnds ('\n' :: binding) = [] := rfl
      simp [binding?, hkeyword] at h
    · exact unbroken_of_binding? h ';' (by simp) rfl

theorem exists_text_eq (s : Schema) : ∃ init, s.text = init ++ [';', '\n'] := by
  cases hname : s.registered with
  | none =>
      refine ⟨s.binding ++ (newSchema ++ (s.literal ++ [')'])), ?_⟩
      simp [Schema.text, Schema.construction, Schema.registration, hname, closer]
  | some name =>
      refine ⟨s.binding ++ s.construction ++ (mongooseModel ++ (announced name s.var ++ [')'])), ?_⟩
      simp [Schema.text, Schema.registration_eq hname, closer]

theorem sourceText_eq_nil_or (schemas : List Schema) :
    sourceText schemas = [] ∨ ∃ init, sourceText schemas = init ++ [';', '\n'] := by
  rcases List.eq_nil_or_concat schemas with rfl | ⟨ss, s, rfl⟩
  · exact .inl rfl
  · obtain ⟨init, hinit⟩ := exists_text_eq s
    refine .inr ⟨sourceText ss ++ init, ?_⟩
    simp [sourceText, hinit]

theorem find?_window (earlier : List Schema) (s : Schema) {window : List Char}
    (hwindow : window <:+ sourceText earlier) :
    find? binding? (window ++ s.binding) = some s.var.chars := by
  rcases sourceText_eq_nil_or earlier with hnil | ⟨init, hinit⟩
  · rw [hnil, List.suffix_nil] at hwindow
    rw [hwindow]
    exact findFrom?_of_read (binding?_binding s rfl)
  · rw [hinit] at hwindow
    have hskip : findFrom? binding? none (window ++ s.binding) =
        findFrom? binding? (behind none window) s.binding :=
      findFrom?_append_of_none fun p hp hne => binding?_earlier (hp.trans hwindow) hne
    have hstart : startsWord (behind none window) = true := by
      have htext : init ++ [';', '\n'] = (init ++ [';']) ++ ['\n'] := by simp
      rw [htext, List.suffix_concat_iff] at hwindow
      rcases hwindow with rfl | ⟨q, rfl, -⟩
      · rfl
      · rw [behind_concat]
        decide
    rw [Text.find?, hskip]
    exact findFrom?_of_read (binding?_binding s hstart)

theorem find?_sourceText (earlier later : List Schema) (s : Schema) {lookback : Int}
    (hlookback : (s.var.chars.length : Int) + 9 ≤ lookback) :
    Binding.find? (sourceText (earlier ++ s :: later))
      (((sourceText earlier).length + s.binding.length : Nat) : Int) lookback =
        some s.var.chars := by
  have htext : sourceText (earlier ++ s :: later) =
      sourceText earlier ++ (s.binding ++ (s.construction ++ (s.registration ++
        sourceText later))) := by
    simp [sourceText, Schema.text]
  have hbinding : s.binding.length = s.var.chars.length + 9 := by
    simp [Schema.binding]
  rw [Binding.find?, htext, slice_append (by omega)]
  exact find?_window earlier s (List.drop_suffix _ _)

end Written

end SchemaDiagram
