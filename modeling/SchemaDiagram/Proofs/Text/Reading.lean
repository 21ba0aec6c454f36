import SchemaDiagram.Proofs.Text.Search
import SchemaDiagram.Text.Lines

namespace SchemaDiagram.Text

theorem trimLeft_cons {c : Char} (h : isBlank c = false) (cs : List Char) :
    trimLeft (c :: cs) = c :: cs := by
  simp [trimLeft, h]

theorem trimLeft_blank {c : Char} (h : isBlank c = true) (cs : List Char) :
    trimLeft (c :: cs) = trimLeft cs := by
  simp [trimLeft, h]

theorem exists_blanks (cs : List Char) :
    ∃ gap, (∀ c ∈ gap, isBlank c = true) ∧ cs = gap ++ trimLeft cs :=
  ⟨cs.takeWhile isBlank, List.all_eq_true.1 List.all_takeWhile,
    List.takeWhile_append_dropWhile.symm⟩

theorem notMem_of_blank {c : Char} {gap : List Char} (h : ∀ d ∈ gap, isBlank d = true)
    (hc : isBlank c = false) : c ∉ gap := by
  intro hmem
  rw [h c hmem] at hc
  exact absurd hc (by simp)

theorem trimLeft_append_of_blank {gap : List Char} (h : ∀ c ∈ gap, isBlank c = true)
    (rest : List Char) : trimLeft (gap ++ rest) = trimLeft rest :=
  List.dropWhile_append_of_pos h

theorem mem_trimLeft {c : Char} {cs : List Char} (h : c ∈ cs) :
    isBlank c = true ∨ c ∈ trimLeft cs := by
  obtain ⟨gap, hgap, hsplit⟩ := exists_blanks cs
  rw [hsplit] at h
  rcases List.mem_append.1 h with h | h
  · exact .inl (hgap c h)
  · exact .inr h

theorem mem_trim {c : Char} {cs : List Char} (h : c ∈ cs) : isBlank c = true ∨ c ∈ trim cs := by
  rcases mem_trimLeft h with hblank | hleft
  · exact .inl hblank
  · rcases mem_trimLeft (List.mem_reverse.2 hleft) with hblank | hright
    · exact .inl hblank
    · exact .inr (List.mem_reverse.2 hright)

theorem mem_trim_iff {c : Char} {cs : List Char} (hc : isBlank c = false) : c ∈ trim cs ↔ c ∈ cs := by
  constructor
  · intro h
    have hleft := (List.dropWhile_sublist isBlank).subset (List.mem_reverse.1 h)
    exact (List.dropWhile_sublist isBlank).subset (List.mem_reverse.1 hleft)
  · intro h
    refine (mem_trim h).resolve_left ?_
    rw [hc]
    exact Bool.false_ne_true

theorem notMem_of_mem_splitAt {sep : Char} {piece cs : List Char} (h : piece ∈ splitAt sep cs) :
    sep ∉ piece := by
  induction cs generalizing piece with
  | nil =>
      obtain rfl := List.mem_singleton.1 h
      exact List.not_mem_nil
  | cons c cs ih =>
      rw [splitAt] at h
      split at h
      · rcases List.mem_cons.1 h with rfl | h
        · exact List.not_mem_nil
        · exact ih h
      · next hc =>
          cases hsplit : splitAt sep cs with
          | nil => exact absurd hsplit (splitAt_ne_nil sep cs)
          | cons first rest =>
              rw [hsplit] at h ih
              rcases List.mem_cons.1 h with rfl | h
              · exact List.not_mem_cons_of_ne_of_not_mem (Ne.symm hc) (ih List.mem_cons_self)
              · exact ih (List.mem_cons_of_mem first h)

theorem subset_of_mem_splitAt {sep : Char} {piece cs : List Char} (h : piece ∈ splitAt sep cs) :
    piece ⊆ cs := by
  induction cs generalizing piece with
  | nil =>
      obtain rfl := List.mem_singleton.1 h
      exact List.nil_subset []
  | cons c cs ih =>
      rw [splitAt] at h
      split at h
      · rcases List.mem_cons.1 h with rfl | h
        · exact List.nil_subset _
        · exact List.subset_cons_of_subset c (ih h)
      · cases hpieces : splitAt sep cs with
        | nil => exact absurd hpieces (splitAt_ne_nil sep cs)
        | cons first rest =>
            rw [hpieces] at h ih
            rcases List.mem_cons.1 h with rfl | h
            · exact List.cons_subset_cons c (ih List.mem_cons_self)
            · exact List.subset_cons_of_subset c (ih (List.mem_cons_of_mem first h))

theorem trimLeft_concat {c : Char} (h : isBlank c = false) (cs : List Char) :
    trimLeft (cs ++ [c]) = trimLeft cs ++ [c] := by
  rw [trimLeft, List.dropWhile_append]
  split
  · next hnone =>
      rw [trimLeft, List.isEmpty_iff.1 hnone]
      simp [h]
  · rfl

theorem trimRight_concat {c : Char} (h : isBlank c = false) (cs : List Char) :
    trimRight (cs ++ [c]) = cs ++ [c] := by
  simp [trimRight, dropRightWhile, h]

theorem trimRight_blank {c : Char} (h : isBlank c = true) (cs : List Char) :
    trimRight (cs ++ [c]) = trimRight cs := by
  simp [trimRight, dropRightWhile, h]

theorem trimRight_of_blank {gap : List Char} (h : ∀ c ∈ gap, isBlank c = true) :
    trimRight gap = [] := by
  have hreverse : ∀ c ∈ gap.reverse, isBlank c = true := fun c hc => h c (List.mem_reverse.1 hc)
  have hdrop : (gap.reverse ++ []).dropWhile isBlank = [].dropWhile isBlank :=
    List.dropWhile_append_of_pos hreverse
  rw [List.append_nil] at hdrop
  rw [trimRight, dropRightWhile, hdrop]
  rfl

theorem trim_of_blank {gap : List Char} (h : ∀ c ∈ gap, isBlank c = true) : trim gap = [] := by
  have hleft : trimLeft (gap ++ []) = trimLeft [] := trimLeft_append_of_blank h []
  rw [List.append_nil] at hleft
  rw [trim, hleft]
  rfl

theorem trimRight_append_of_eq_nil {t : List Char} (h : trimRight t = []) (s : List Char) :
    trimRight (s ++ t) = trimRight s := by
  have hblank : t.reverse.dropWhile isBlank = [] := List.reverse_eq_nil_iff.1 h
  simp [trimRight, dropRightWhile, List.dropWhile_append, hblank]

theorem trimRight_append_of_ne_nil {t : List Char} (h : trimRight t ≠ []) (s : List Char) :
    trimRight (s ++ t) = s ++ trimRight t := by
  have hkept : t.reverse.dropWhile isBlank ≠ [] := fun hnil => h (List.reverse_eq_nil_iff.2 hnil)
  simp [trimRight, dropRightWhile, List.dropWhile_append, hkept]

theorem trimRight_cons (c : Char) (cs : List Char) :
    (isBlank c = true ∧ trimRight cs = [] ∧ trimRight (c :: cs) = []) ∨
      trimRight (c :: cs) = c :: trimRight cs := by
  by_cases hcs : trimRight cs = []
  · have hhead : trimRight (c :: cs) = trimRight [c] := trimRight_append_of_eq_nil hcs [c]
    cases hc : isBlank c with
    | true => exact .inl ⟨rfl, hcs, hhead.trans (trimRight_blank hc [])⟩
    | false => exact .inr (hcs ▸ hhead.trans (trimRight_concat hc []))
  · exact .inr (trimRight_append_of_ne_nil hcs [c])

theorem trimRight_cons_of_not_blank {c : Char} (h : isBlank c = false) (cs : List Char) :
    trimRight (c :: cs) = c :: trimRight cs := by
  rcases trimRight_cons c cs with ⟨hc, -⟩ | hcons
  · rw [h] at hc
    exact absurd hc (by simp)
  · exact hcons

theorem trimRight_prefix (cs : List Char) : trimRight cs <+: cs := by
  have hsuffix := List.dropWhile_suffix isBlank (l := cs.reverse)
  rw [← List.reverse_prefix, List.reverse_reverse] at hsuffix
  exact hsuffix

theorem dropWhile_trimRight (p : Char → Bool) (cs : List Char) :
    (trimRight cs).dropWhile p = trimRight (cs.dropWhile p) := by
  induction cs with
  | nil => rfl
  | cons c cs ih =>
      rcases trimRight_cons c cs with ⟨-, hcs, hnil⟩ | hcons
      · rw [hcs] at ih
        rw [hnil, List.dropWhile_cons]
        split
        · exact ih
        · exact hnil.symm
      · rw [hcons, List.dropWhile_cons, List.dropWhile_cons]
        split
        · exact ih
        · exact hcons.symm

theorem trim_trimLeft (cs : List Char) : trim (trimLeft cs) = trim cs := by
  rw [trim, trimLeft_trimLeft, ← trim]

theorem trimRight_trimRight (cs : List Char) : trimRight (trimRight cs) = trimRight cs := by
  have hreverse : (trimRight cs).reverse = trimLeft cs.reverse := List.reverse_reverse _
  have hdrop : (trimRight cs).reverse.dropWhile isBlank = cs.reverse.dropWhile isBlank := by
    rw [hreverse]
    exact trimLeft_trimLeft cs.reverse
  rw [trimRight, dropRightWhile, hdrop]
  rfl

theorem trim_trimRight (cs : List Char) : trim (trimRight cs) = trim cs := by
  rw [trim, trimLeft, dropWhile_trimRight, trimRight_trimRight]
  rfl

theorem trim_trim (cs : List Char) : trim (trim cs) = trim cs :=
  (trim_trimRight (trimLeft cs)).trans (trim_trimLeft cs)

theorem count_trimLeft {c : Char} (h : isBlank c = false) (cs : List Char) :
    (trimLeft cs).count c = cs.count c := by
  obtain ⟨gap, hgap, hsplit⟩ := exists_blanks cs
  have hnone : c ∉ gap := notMem_of_blank hgap h
  have hcount := congrArg (List.count c) hsplit
  rw [List.count_append, List.count_eq_zero_of_not_mem hnone, Nat.zero_add] at hcount
  exact hcount.symm

theorem count_trim {c : Char} (h : isBlank c = false) (cs : List Char) :
    (trim cs).count c = cs.count c := by
  have hright : (trim cs).count c = (trimLeft (trimLeft cs).reverse).reverse.count c := rfl
  rw [hright, List.count_reverse, count_trimLeft h, List.count_reverse, count_trimLeft h]

def Trimmed (cs : List Char) : Prop :=
  (∀ c ∈ cs.head?, isBlank c = false) ∧ ∀ c ∈ cs.getLast?, isBlank c = false

theorem Trimmed.trimLeft_append {cs : List Char} (h : Trimmed cs) (hne : cs ≠ [])
    (rest : List Char) : trimLeft (cs ++ rest) = cs ++ rest := by
  cases cs with
  | nil => exact absurd rfl hne
  | cons c cs => exact trimLeft_cons (h.1 c rfl) (cs ++ rest)

theorem Trimmed.trimRight_append {cs : List Char} (h : Trimmed cs) (hne : cs ≠ [])
    (before : List Char) : trimRight (before ++ cs) = before ++ cs := by
  obtain ⟨init, c, rfl⟩ : ∃ init c, cs = init ++ [c] :=
    ⟨cs.dropLast, cs.getLast hne, (List.dropLast_concat_getLast hne).symm⟩
  rw [← List.append_assoc]
  exact trimRight_concat (h.2 c (by simp)) (before ++ init)

theorem Trimmed.trim {cs : List Char} (h : Trimmed cs) : trim cs = cs := by
  by_cases hne : cs = []
  · rw [hne, trim_nil]
  · have hleft : trimLeft cs = cs := by simpa using h.trimLeft_append hne []
    rw [Text.trim, hleft]
    simpa using h.trimRight_append hne []

theorem trimmed_of_not_blank {cs : List Char} (h : ∀ c ∈ cs, isBlank c = false) : Trimmed cs :=
  ⟨fun c hc => h c (List.mem_of_mem_head? hc), fun c hc => h c (List.mem_of_getLast? hc)⟩

theorem trimmed_of_word {cs : List Char} (h : ∀ c ∈ cs, isWord c = true) : Trimmed cs :=
  trimmed_of_not_blank fun c hc => isBlank_of_isWord (h c hc)

theorem trimmed_between {c d : Char} (hc : isBlank c = false) (hd : isBlank d = false)
    (cs : List Char) : Trimmed (c :: cs ++ [d]) := by
  constructor
  · intro e he
    obtain rfl : c = e := by simpa using he
    exact hc
  · intro e he
    rw [List.getLast?_concat] at he
    obtain rfl : d = e := by simpa using he
    exact hd

theorem Trimmed.around {s t : List Char} (hs : Trimmed s) (ht : Trimmed t) (hsne : s ≠ [])
    (htne : t ≠ []) (between : List Char) : Trimmed (s ++ between ++ t) := by
  constructor
  · intro c hc
    cases s with
    | nil => exact absurd rfl hsne
    | cons d s => exact hs.1 c hc
  · intro c hc
    obtain ⟨init, d, rfl⟩ : ∃ init d, t = init ++ [d] :=
      ⟨t.dropLast, t.getLast htne, (List.dropLast_concat_getLast htne).symm⟩
    rw [← List.append_assoc, List.getLast?_concat] at hc
    exact ht.2 c (by simpa using hc)

theorem takeWhile_word {w rest : List Char} (hw : ∀ c ∈ w, isWord c = true)
    (hend : endsAtWord rest = true) :
    (w ++ rest).takeWhile isWord = w ∧ (w ++ rest).dropWhile isWord = rest := by
  induction w with
  | nil =>
      cases rest with
      | nil => exact ⟨rfl, rfl⟩
      | cons c rest =>
          have hc : isWord c = false := by simpa [endsAtWord] using hend
          simp [hc]
  | cons c w ih =>
      have hc := hw c (by simp)
      have hrest := ih fun d hd => hw d (List.mem_cons_of_mem _ hd)
      simp [hc, hrest]

theorem word?_append {w rest : List Char} (hne : w ≠ []) (hw : ∀ c ∈ w, isWord c = true)
    (hend : endsAtWord rest = true) : word? (w ++ rest) = some (w, rest) := by
  obtain ⟨htake, hdrop⟩ := takeWhile_word hw hend
  unfold word?
  rw [htake, hdrop]
  cases w with
  | nil => exact absurd rfl hne
  | cons c w => rfl

theorem literal?_append (word : String) (rest : List Char) :
    literal? word (word.toList ++ rest) = some rest :=
  literal?_eq_some_iff.2 rfl

theorem literal?_of_not_word {word : String} {c : Char} (hne : word.toList ≠ [])
    (hhead : word.toList.head?.all isWord = true) (hc : isWord c = false) (cs : List Char) :
    literal? word (c :: cs) = none := by
  refine Option.eq_none_iff_forall_ne_some.2 fun rest h => ?_
  rw [literal?_eq_some_iff] at h
  cases hchars : word.toList with
  | nil => exact hne hchars
  | cons d ds =>
      rw [hchars] at h hhead
      obtain ⟨rfl, -⟩ := List.cons.inj h
      have hd : isWord d = true := hhead
      rw [hd] at hc
      exact absurd hc (by simp)

theorem dropLiteral_of_none {word : String} {cs : List Char} (h : literal? word cs = none) :
    dropLiteral word cs = cs := by
  rw [dropLiteral, h]
  rfl

theorem word_of_literal? {word : String} {w rest left : List Char}
    (hword : ∀ c ∈ word.toList, isWord c = true) (hend : endsAtWord rest = true)
    (h : literal? word (w ++ rest) = some left) :
    ∃ w', w = word.toList ++ w' ∧ left = w' ++ rest := by
  rw [literal?_eq_some_iff, List.append_eq_append_iff] at h
  rcases h with ⟨w', hw', hleft⟩ | ⟨ds, hds, hrest⟩
  · exact ⟨w', hw', hleft⟩
  · cases ds with
    | nil => exact ⟨[], by simpa using hds.symm, by simpa using hrest.symm⟩
    | cons d ds =>
        have hd : isWord d = true := hword d (by simp [hds])
        rw [hrest] at hend
        simp [endsAtWord, hd] at hend

theorem quoted?_append {q r : Char} {inside rest : List Char} (hq : isQuote q = true)
    (hr : isQuote r = true) (h : ∀ c ∈ inside, isQuote c = false) :
    quoted? (q :: inside ++ r :: rest) = some (inside, rest) := by
  have htake : (inside ++ r :: rest).takeWhile (!isQuote ·) = inside := by
    rw [List.takeWhile_append_of_pos (by simpa using h)]
    simp [hr]
  have hdrop : (inside ++ r :: rest).dropWhile (!isQuote ·) = r :: rest := by
    rw [List.dropWhile_append_of_pos (by simpa using h)]
    simp [hr]
  simp [quoted?, quote?, hq, hr, htake, hdrop]

theorem quotedName?_append {q r : Char} {inside rest : List Char} (hq : isQuote q = true)
    (hr : isQuote r = true) (hne : inside ≠ []) (h : ∀ c ∈ inside, isQuote c = false) :
    quotedName? (q :: inside ++ r :: rest) = some (inside, rest) := by
  unfold quotedName?
  rw [quoted?_append hq hr h]
  cases inside with
  | nil => exact absurd rfl hne
  | cons c inside => rfl

theorem takeWhile_quoted {q : Char} (hq : isQuote q = true) (inside rest : List Char) :
    (inside ++ q :: rest).takeWhile (!isQuote ·) = inside.takeWhile (!isQuote ·) ∧
      ∃ c more, isQuote c = true ∧ (inside ++ q :: rest).dropWhile (!isQuote ·) = c :: more := by
  induction inside with
  | nil => exact ⟨by simp [hq], q, rest, hq, by simp [hq]⟩
  | cons c inside ih =>
      obtain ⟨htake, hdrop⟩ := ih
      cases hc : isQuote c with
      | true => exact ⟨by simp [hc], c, inside ++ q :: rest, hc, by simp [hc]⟩
      | false =>
          refine ⟨by simp [hc, htake], ?_⟩
          simpa [hc] using hdrop

theorem quoted?_quotes {q : Char} (hq : isQuote q = true) (inside rest : List Char) :
    (quoted? (q :: inside ++ q :: rest)).map Prod.fst = some (inside.takeWhile (!isQuote ·)) := by
  obtain ⟨htake, c, more, hc, hdrop⟩ := takeWhile_quoted hq inside rest
  simp [quoted?, quote?, hq, htake, hdrop, hc]

theorem not_isQuote_of_quoted? {cs inside rest : List Char} (h : quoted? cs = some (inside, rest)) :
    ∀ c ∈ inside, isQuote c = false := by
  simp only [quoted?, Option.bind_eq_bind, Option.bind_eq_some_iff] at h
  obtain ⟨left, -, behindQuote, -, hfound⟩ := h
  obtain ⟨rfl, -⟩ := Prod.mk.inj (Option.some.inj hfound)
  intro c hc
  simpa using List.all_eq_true.1 List.all_takeWhile c hc

theorem quoted?_of_quotedName? {cs : List Char} {found : List Char × List Char}
    (h : quotedName? cs = some found) : quoted? cs = some found := by
  unfold quotedName? at h
  split at h
  · exact absurd h (by simp)
  · exact h

theorem isQuote_of_isWord {c : Char} (h : isWord c = true) : isQuote c = false := by
  have hs := ne_of_isWord h (d := '\'') (by decide)
  have hd := ne_of_isWord h (d := '"') (by decide)
  simp [isQuote, hs, hd]

theorem joinWith_cons_eq (sep piece : List Char) (pieces : List (List Char)) :
    joinWith sep (piece :: pieces) = piece ++ pieces.flatMap (sep ++ ·) := by
  induction pieces generalizing piece with
  | nil => simp [joinWith]
  | cons next pieces ih =>
      rw [joinWith_cons sep piece (by simp), ih next]
      simp

theorem splitAt_of_forall_ne {sep : Char} {piece : List Char} (h : ∀ c ∈ piece, c ≠ sep) :
    splitAt sep piece = [piece] := by
  induction piece with
  | nil => rfl
  | cons c piece ih =>
      have hrest := ih fun d hd => h d (List.mem_cons_of_mem _ hd)
      simp [splitAt, h c (by simp), hrest]

theorem splitAt_append_cons (sep : Char) (cs ds : List Char) :
    splitAt sep (cs ++ sep :: ds) = splitAt sep cs ++ splitAt sep ds := by
  induction cs with
  | nil => simp [splitAt]
  | cons c cs ih =>
      rw [List.cons_append, splitAt, splitAt, ih]
      cases hpieces : splitAt sep cs with
      | nil => exact absurd hpieces (splitAt_ne_nil sep cs)
      | cons piece pieces => split <;> rfl

theorem splitAt_append {sep : Char} {piece : List Char} (h : ∀ c ∈ piece, c ≠ sep)
    (rest : List Char) : splitAt sep (piece ++ sep :: rest) = piece :: splitAt sep rest := by
  rw [splitAt_append_cons, splitAt_of_forall_ne h]
  rfl

theorem joinWith_of_append {P : List Char → Prop} (hnil : P [])
    (happend : ∀ s t, P s → P t → P (s ++ t)) {sep : List Char} {pieces : List (List Char)}
    (hsep : P sep) (hpieces : ∀ piece ∈ pieces, P piece) : P (joinWith sep pieces) := by
  cases pieces with
  | nil => exact hnil
  | cons piece pieces =>
      rw [joinWith_cons_eq]
      refine happend _ _ (hpieces piece (by simp)) ?_
      induction pieces with
      | nil => exact hnil
      | cons next pieces ih =>
          rw [List.flatMap_cons]
          have hnext : P (sep ++ next) := happend _ _ hsep (hpieces next (by simp))
          refine happend _ _ hnext (ih fun other hother => ?_)
          rcases List.mem_cons.1 hother with rfl | hother
          · exact hpieces other (by simp)
          · exact hpieces other (by simp [hother])

theorem forall_mem_joinWith {p : Char → Prop} {sep : List Char} {pieces : List (List Char)}
    (hsep : ∀ c ∈ sep, p c) (hpieces : ∀ piece ∈ pieces, ∀ c ∈ piece, p c) :
    ∀ c ∈ joinWith sep pieces, p c := by
  refine joinWith_of_append (P := fun s => ∀ c ∈ s, p c) (by simp) ?_ hsep hpieces
  intro s t hs ht c hc
  rcases List.mem_append.1 hc with hc | hc
  · exact hs c hc
  · exact ht c hc

end SchemaDiagram.Text
