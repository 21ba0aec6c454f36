import SchemaDiagram.Proofs.Source.Notation
import SchemaDiagram.Proofs.Text.Reading

namespace SchemaDiagram.Written

open SchemaDiagram.Text
open SchemaDiagram.Attribute (label? labelled)

theorem Word.trimmed (w : Word) : Trimmed w.chars :=
  trimmed_of_word w.isWord

theorem Word.not_isQuote (w : Word) : ∀ c ∈ w.chars, isQuote c = false :=
  fun c hc => isQuote_of_isWord (w.isWord c hc)

theorem label?_eq_some {name : String} {before : Option Char} {cs rest : List Char}
    (h : label? name before cs = some rest) :
    startsWord before = true ∧ ∃ gap tail, (∀ c ∈ gap, isBlank c = true) ∧
      cs = name.toList ++ (gap ++ ':' :: tail) ∧ rest = trimLeft tail := by
  simp only [label?, keyword?, Option.bind_eq_bind, Option.bind_eq_some_iff] at h
  obtain ⟨left, hleft, tail, htail, hrest⟩ := h
  split at hleft
  · next hstart =>
      rw [literal?_eq_some_iff] at hleft htail
      obtain ⟨gap, hgap, hsplit⟩ := exists_blanks left
      refine ⟨hstart, gap, tail, hgap, ?_, by simpa using hrest.symm⟩
      rw [← hleft, hsplit, ← htail]
      rfl
  · exact absurd hleft (by simp)

section

variable {α : Type} {name : String} {read : List Char → Option (α × List Char)}
  {before : Option Char}

theorem labelled_eq_none {cs : List Char} (h : label? name before cs = none) :
    labelled name read before cs = none := by
  simp [labelled, h]

theorem worded_labelled (hne : name.toList ≠ []) (hname : ∀ c ∈ name.toList, isWord c = true) :
    Worded (labelled name read) where
  within c cs hc := by
    refine labelled_eq_none (Option.eq_none_iff_forall_ne_some.2 fun rest h => ?_)
    have hstart := (label?_eq_some h).1
    simp [startsWord, hc] at hstart
  between before c cs hc := by
    refine labelled_eq_none (Option.eq_none_iff_forall_ne_some.2 fun rest h => ?_)
    obtain ⟨-, gap, tail, -, hcs, -⟩ := label?_eq_some h
    cases hchars : name.toList with
    | nil => exact hne hchars
    | cons d ds =>
        rw [hchars] at hcs
        obtain ⟨rfl, -⟩ := List.cons.inj hcs
        have hd := hname c (by simp [hchars])
        rw [hc] at hd
        exact absurd hd (by simp)
  atEnd before := by
    refine labelled_eq_none (Option.eq_none_iff_forall_ne_some.2 fun rest h => ?_)
    obtain ⟨-, gap, tail, -, hcs, -⟩ := label?_eq_some h
    simp at hcs

def leadsToColon (c : Char) : Bool :=
  isWord c || isBlank c

theorem guarded_labelled (hname : ∀ c ∈ name.toList, isWord c = true) :
    Guarded leadsToColon (· == ':') (labelled name read) := by
  intro before cs found h
  simp only [labelled, Option.bind_eq_some_iff] at h
  obtain ⟨rest, hlabel, -⟩ := h
  obtain ⟨-, gap, tail, hgap, rfl, -⟩ := label?_eq_some hlabel
  rw [← List.append_assoc]
  refine reaches_append_of_lead ?_ (by simp [reaches])
  intro c hc
  rcases List.mem_append.1 hc with hc | hc
  · simp [leadsToColon, hname c hc]
  · simp [leadsToColon, hgap c hc]

end

structure Entry.Plain (a : Entry) : Prop where
  label_nonempty : a.label.toList ≠ []
  label_isWord : ∀ c ∈ a.label.toList, isWord c = true
  body_nonempty : a.body ≠ []
  body_trimmed : Trimmed a.body
  body_quiet : ∀ c ∈ a.body, (c == ':') = false

def closing (rest : List Char) : Prop :=
  rest = [] ∨ rest = [' ', '}'] ∨ ∃ more, rest = ',' :: more

theorem closing.reaches {rest : List Char} (h : closing rest) :
    reaches leadsToColon (· == ':') rest = false := by
  rcases h with rfl | rfl | ⟨more, rfl⟩
  · rfl
  · rfl
  · rfl

theorem closing.endsAtWord {rest : List Char} (h : closing rest) : endsAtWord rest = true := by
  rcases h with rfl | rfl | ⟨more, rfl⟩
  · rfl
  · rfl
  · rfl

section

variable {α : Type} {name : String} {read : List Char → Option (α × List Char)}

theorem label?_text {a : Entry} (hne : a.body ≠ []) (htrimmed : Trimmed a.body)
    (before : Option Char) (hbefore : startsWord before = true) (hlabel : a.label = name)
    (rest : List Char) :
    label? name before (a.text ++ rest) = some (a.body ++ rest) := by
  have hcolon : trimLeft (':' :: ' ' :: (a.body ++ rest)) = ':' :: ' ' :: (a.body ++ rest) :=
    trimLeft_cons (by decide) _
  have hspace : trimLeft (' ' :: (a.body ++ rest)) = a.body ++ rest := by
    rw [trimLeft_blank (by decide)]
    exact htrimmed.trimLeft_append hne rest
  have hliteral : literal? ":" (':' :: ' ' :: (a.body ++ rest)) = some (' ' :: (a.body ++ rest)) :=
    rfl
  simp only [Entry.text, hlabel, List.append_assoc, List.cons_append, label?,
    keyword?, hbefore, if_true, literal?_append, Option.bind_eq_bind, Option.bind_some, hcolon,
    hliteral, hspace]
  rfl

theorem label?_text_of_ne {a : Entry} (ha : a.Plain) (before : Option Char)
    (hname : ∀ c ∈ name.toList, isWord c = true) (hlabel : a.label ≠ name)
    (rest : List Char) : label? name before (a.text ++ rest) = none := by
  refine Option.eq_none_iff_forall_ne_some.2 fun left h => ?_
  obtain ⟨-, gap, tail, hgap, hcs, -⟩ := label?_eq_some h
  -- what stands before the first colon is the label on one side, the name and a gap on the other
  have hleft : (a.text ++ rest).takeWhile (· != ':') = a.label.toList := by
    rw [Entry.text, List.append_assoc, List.takeWhile_append_of_pos]
    · simp
    · intro c hc
      simpa using ne_of_isWord (ha.label_isWord c hc) (by decide)
  have hright : (name.toList ++ (gap ++ ':' :: tail)).takeWhile (· != ':') =
      name.toList ++ gap := by
    rw [← List.append_assoc, List.takeWhile_append_of_pos]
    · simp
    · intro c hc
      rcases List.mem_append.1 hc with hc | hc
      · simpa using ne_of_isWord (hname c hc) (by decide)
      · have hblank := hgap c hc
        simp only [bne_iff_ne]
        rintro rfl
        exact absurd hblank (by decide)
  have heq : a.label.toList = name.toList ++ gap := by rw [← hleft, hcs, hright]
  cases gap with
  | nil => exact hlabel (String.toList_inj.1 (by simpa using heq))
  | cons b gap =>
      have hword := ha.label_isWord b (by simp [heq])
      have hblank := hgap b (by simp)
      rw [isBlank_of_isWord hword] at hblank
      exact absurd hblank (by simp)

theorem findFrom?_attribute_of_none {a : Entry} (ha : a.Plain) (before : Option Char)
    (hne : name.toList ≠ []) (hname : ∀ c ∈ name.toList, isWord c = true) {rest : List Char}
    (hrest : closing rest) (hnone : labelled name read before (a.text ++ rest) = none) :
    findFrom? (labelled name read) before (a.text ++ rest) =
      findFrom? (labelled name read) (behind before a.text) rest := by
  have hw : Worded (labelled name read) := worded_labelled hne hname
  have hsplit : a.text ++ rest = a.label.toList ++ ':' :: ((' ' :: a.body) ++ rest) := by
    simp [Entry.text]
  have hquiet : ∀ c ∈ ' ' :: a.body, (c == ':') = false := by
    intro c hc
    rcases List.mem_cons.1 hc with rfl | hc
    · rfl
    · exact ha.body_quiet c hc
  rw [hsplit] at hnone ⊢
  rw [hw.findFrom?_word ha.label_nonempty ha.label_isWord hnone, hw.findFrom?_cons (by decide),
    findFrom?_append_of_quiet (guarded_labelled hname) hquiet hrest.reaches]
  simp [Entry.text, behind_append, behind]

theorem findFrom?_attribute {a : Entry} (ha : a.Plain) (before : Option Char)
    (hbefore : startsWord before = true) (hne : name.toList ≠ [])
    (hname : ∀ c ∈ name.toList, isWord c = true) {rest : List Char} (hrest : closing rest) :
    findFrom? (labelled name read) before (a.text ++ rest) =
      ((if a.label = name then read (a.body ++ rest) else none).map Prod.fst).or
        (findFrom? (labelled name read) (behind before a.text) rest) := by
  have hpass := @findFrom?_attribute_of_none α name read a ha before hne hname rest hrest
  by_cases hlabel : a.label = name
  · have hread : labelled name read before (a.text ++ rest) = read (a.body ++ rest) := by
      simp [labelled, label?_text ha.body_nonempty ha.body_trimmed before hbefore hlabel]
    rw [if_pos hlabel]
    cases hfound : read (a.body ++ rest) with
    | none => simpa using hpass (hread.trans hfound)
    | some found =>
        obtain ⟨value, left⟩ := found
        simpa using findFrom?_of_read (hread.trans hfound)
  · rw [if_neg hlabel]
    simpa using hpass (labelled_eq_none (label?_text_of_ne ha before hname hlabel rest))

end

def remaining : List Entry → List Char
  | [] => [' ', '}']
  | a :: as => ',' :: ' ' :: (a.text ++ remaining as)

theorem closing_remaining (as : List Entry) : closing (remaining as) := by
  cases as with
  | nil => exact .inr (.inl rfl)
  | cons a as => exact .inr (.inr ⟨_, rfl⟩)

theorem objectText_cons (a : Entry) (as : List Entry) :
    objectText ((a :: as).map Entry.text) = '{' :: ' ' :: (a.text ++ remaining as) := by
  have htail : (as.map Entry.text).flatMap (separator ++ ·) ++ [' ', '}'] = remaining as := by
    induction as with
    | nil => rfl
    | cons b as ih => simp [remaining, separator, ← ih]
  simp only [objectText, List.map_cons, joinWith_cons_eq, List.cons_append, List.append_assoc]
  rw [htail]

theorem findSome?_cons_eq_or {α β : Type} (f : α → Option β) (a : α) (as : List α) :
    (a :: as).findSome? f = (f a).or (as.findSome? f) := by
  cases h : f a <;> simp [h]

section

variable {α : Type} {name : String} {read : List Char → Option (α × List Char)}
  {value : Entry → Option α}

def under (name : String) (value : Entry → Option α) (a : Entry) : Option α :=
  if a.label = name then value a else none

def Reads (name : String) (read : List Char → Option (α × List Char))
    (value : Entry → Option α) (a : Entry) : Prop :=
  a.label = name → ∀ rest, closing rest → (read (a.body ++ rest)).map Prod.fst = value a

theorem findFrom?_attribute_eq {a : Entry} (ha : a.Plain) (hread : Reads name read value a)
    (hne : name.toList ≠ []) (hname : ∀ c ∈ name.toList, isWord c = true) (as : List Entry) :
    findFrom? (labelled name read) (some ' ') (a.text ++ remaining as) =
      (under name value a).or
        (findFrom? (labelled name read) (behind (some ' ') a.text) (remaining as)) := by
  rw [findFrom?_attribute ha (some ' ') rfl hne hname (closing_remaining as)]
  unfold under
  split
  · next hlabel => rw [hread hlabel (remaining as) (closing_remaining as)]
  · rfl

theorem findFrom?_remaining {as : List Entry} (has : ∀ a ∈ as, a.Plain)
    (hread : ∀ a ∈ as, Reads name read value a) (hne : name.toList ≠ [])
    (hname : ∀ c ∈ name.toList, isWord c = true) (before : Option Char) :
    findFrom? (labelled name read) before (remaining as) = as.findSome? (under name value) := by
  have hw : Worded (labelled name read) := worded_labelled hne hname
  induction as generalizing before with
  | nil =>
      rw [remaining, hw.findFrom?_cons (by decide), hw.findFrom?_cons (by decide)]
      simp [findFrom?, hw.atEnd]
  | cons a as ih =>
      rw [remaining, hw.findFrom?_cons (by decide), hw.findFrom?_cons (by decide),
        findFrom?_attribute_eq (has a (by simp)) (hread a (by simp)) hne hname,
        ih (fun b hb => has b (List.mem_cons_of_mem _ hb))
          (fun b hb => hread b (List.mem_cons_of_mem _ hb)),
        findSome?_cons_eq_or]

theorem find?_objectText {as : List Entry} (has : ∀ a ∈ as, a.Plain)
    (hread : ∀ a ∈ as, Reads name read value a) (hne : name.toList ≠ [])
    (hname : ∀ c ∈ name.toList, isWord c = true) :
    find? (labelled name read) (objectText (as.map Entry.text)) =
      as.findSome? (under name value) := by
  have hw : Worded (labelled name read) := worded_labelled hne hname
  cases as with
  | nil =>
      have htext : objectText (([] : List Entry).map Entry.text) =
          '{' :: ' ' :: remaining [] := rfl
      rw [htext, find?, hw.findFrom?_cons (by decide), hw.findFrom?_cons (by decide)]
      exact findFrom?_remaining has hread hne hname _
  | cons a as =>
      rw [objectText_cons, find?, hw.findFrom?_cons (by decide), hw.findFrom?_cons (by decide),
        findFrom?_attribute_eq (has a (by simp)) (hread a (by simp)) hne hname,
        findFrom?_remaining (fun b hb => has b (List.mem_cons_of_mem _ hb))
          (fun b hb => hread b (List.mem_cons_of_mem _ hb)) hne hname,
        findSome?_cons_eq_or]

end

end SchemaDiagram.Written
