import SchemaDiagram.Proofs.Text.Reading
import SchemaDiagram.Schema.FieldValue

namespace SchemaDiagram.Written

open SchemaDiagram.Text

def inCode (c : Char) : Bool :=
  c != '/' && !isQuote c && c != '\x60'

theorem inCode_of_ne {c : Char} (h : ∀ d ∈ ['/', '\'', '"', '\x60'], c ≠ d) : inCode c = true := by
  have hslash := h '/' (by simp)
  have hsingle := h '\'' (by simp)
  have hdouble := h '"' (by simp)
  have hback := h '\x60' (by simp)
  simp [inCode, isQuote, hslash, hsingle, hdouble, hback]

theorem inCode_of_isBlank {c : Char} (h : isBlank c = true) : inCode c = true := by
  have hspecial : ∀ d ∈ ['/', '\'', '"', '\x60'], isBlank d = false := by decide
  refine inCode_of_ne fun d hd => ?_
  rintro rfl
  rw [hspecial c hd] at h
  exact absurd h (by simp)

theorem beforeComment?_append {cs : List Char} (h : ∀ c ∈ cs, inCode c = true) (rest : List Char) :
    beforeComment? .code (cs ++ rest) = (beforeComment? .code rest).map (cs ++ ·) := by
  induction cs with
  | nil => simp
  | cons c cs ih =>
      have hrest := ih fun d hd => h d (List.mem_cons_of_mem _ hd)
      have hc := h c (by simp)
      simp only [inCode, Bool.and_eq_true, bne_iff_ne, Bool.not_eq_true'] at hc
      obtain ⟨⟨hslash, hquote⟩, hback⟩ := hc
      rw [List.cons_append, beforeComment?]
      simp [hslash, hquote, hback, hrest, Function.comp_def]

theorem beforeComment?_comment (text : List Char) :
    beforeComment? .code ('/' :: '/' :: text) = some [] := by
  rfl

theorem beforeComment?_eq_none {cs : List Char} (h : ∀ c ∈ cs, c ≠ '/') (state : CodeState) :
    beforeComment? state cs = none := by
  induction cs generalizing state with
  | nil => cases state <;> rfl
  | cons c cs ih =>
      have hc := h c (by simp)
      have hrest := ih fun d hd => h d (List.mem_cons_of_mem _ hd)
      cases state <;> simp [beforeComment?, hc, hrest]

theorem beforeComment?_quoted {q : Char} {inside rest : List Char} (hinside : q ∉ inside)
    (hrest : ∀ c ∈ rest, c ≠ '/') : beforeComment? (.quoted q) (inside ++ rest) = none ∧
      beforeComment? (.escaped q) (inside ++ rest) = none := by
  induction inside with
  | nil => exact ⟨beforeComment?_eq_none hrest _, beforeComment?_eq_none hrest _⟩
  | cons c inside ih =>
      obtain ⟨hquoted, hescaped⟩ := ih fun h => hinside (List.mem_cons_of_mem _ h)
      have hc : c ≠ q := fun h => hinside (h ▸ List.mem_cons_self)
      constructor
      · by_cases hback : c = '\\'
        · simp [beforeComment?, hback, hescaped]
        · simp [beforeComment?, hback, hc, hquoted]
      · simp [beforeComment?, hquoted]

theorem beforeComment?_quote {q : Char} {inside : List Char} (hquote : q ∉ inside)
    (hescape : '\\' ∉ inside) (hq : q ≠ '\\') (rest : List Char) :
    beforeComment? (.quoted q) (inside ++ q :: rest) =
      (beforeComment? .code rest).map (inside ++ q :: ·) := by
  induction inside with
  | nil => simp [beforeComment?, hq]
  | cons c inside ih =>
      have hrest := ih (List.not_mem_of_not_mem_cons hquote) (List.not_mem_of_not_mem_cons hescape)
      have hc : c ≠ q := Ne.symm (List.ne_of_not_mem_cons hquote)
      have hback : c ≠ '\\' := Ne.symm (List.ne_of_not_mem_cons hescape)
      rw [List.cons_append, beforeComment?, if_neg hback, if_neg hc, hrest, Option.map_map]
      rfl

def lastLine (cs : List Char) : List Char :=
  (cs.reverse.takeWhile (· != '\n')).reverse

theorem lastLine_suffix (cs : List Char) : lastLine cs <:+ cs := by
  have hprefix := List.takeWhile_prefix (· != '\n') (l := cs.reverse)
  rw [← List.reverse_suffix, List.reverse_reverse] at hprefix
  exact hprefix

theorem lastLine_append {tail : List Char} (h : '\n' ∉ tail) (cs : List Char) :
    lastLine (cs ++ tail) = lastLine cs ++ tail := by
  have htail : ∀ c ∈ tail.reverse, (c != '\n') = true := by
    intro c hc
    simp only [bne_iff_ne]
    rintro rfl
    exact h (List.mem_reverse.1 hc)
  rw [lastLine, List.reverse_append, List.takeWhile_append_of_pos htail, List.reverse_append,
    List.reverse_reverse, ← lastLine]

theorem lastLine_eq_self {cs : List Char} (h : '\n' ∉ cs) : lastLine cs = cs := by
  simpa [lastLine] using lastLine_append h []

theorem mem_of_mem_lastLine {c : Char} {below : List Char} (cs : List Char)
    (h : c ∈ lastLine (cs ++ '\n' :: below)) : c ∈ below := by
  have hsplit : (cs ++ '\n' :: below).reverse = below.reverse ++ '\n' :: cs.reverse := by simp
  rw [lastLine, hsplit, List.mem_reverse, List.takeWhile_append] at h
  split at h
  · simpa using h
  · exact List.mem_reverse.1 ((List.takeWhile_prefix _).subset h)

theorem dropTrailingComment_of_none {cs : List Char}
    (h : beforeComment? .code (lastLine cs) = none) : dropTrailingComment cs = cs := by
  have hlast : beforeComment? .code (cs.reverse.takeWhile (· != '\n')).reverse = none := h
  simp only [dropTrailingComment, hlast]

theorem dropTrailingComment_eq_self {cs : List Char} (h : ∀ c ∈ cs, c ≠ '/') :
    dropTrailingComment cs = cs := by
  have hlast : ∀ c ∈ lastLine cs, c ≠ '/' := fun c hc => h c ((lastLine_suffix cs).subset hc)
  exact dropTrailingComment_of_none (beforeComment?_eq_none hlast .code)

theorem kept_of_slashless {cs : List Char} (htrimmed : Trimmed cs) (h : ∀ c ∈ cs, c ≠ '/') :
    dropTrailingComment (trim cs) = cs := by
  rw [htrimmed.trim, dropTrailingComment_eq_self h]

theorem dropTrailingComment_comment {cs text : List Char}
    (hcode : ∀ c ∈ lastLine cs, inCode c = true) (htext : '\n' ∉ text) :
    dropTrailingComment (cs ++ '/' :: '/' :: text) = trimRight cs := by
  obtain ⟨above, habove⟩ := lastLine_suffix cs
  have hline : lastLine (cs ++ '/' :: '/' :: text) = lastLine cs ++ '/' :: '/' :: text :=
    lastLine_append (by simpa using htext) cs
  have hlast : ((cs ++ '/' :: '/' :: text).reverse.takeWhile (· != '\n')).reverse =
      lastLine cs ++ '/' :: '/' :: text := hline
  have hbefore : beforeComment? .code (lastLine cs ++ '/' :: '/' :: text) = some (lastLine cs) := by
    rw [beforeComment?_append hcode, beforeComment?_comment, Option.map_some, List.append_nil]
  have hlength : (cs ++ '/' :: '/' :: text).length - (lastLine cs ++ '/' :: '/' :: text).length =
      above.length := by
    have hcount := congrArg List.length habove
    simp only [List.length_append] at hcount ⊢
    omega
  have htake : (cs ++ '/' :: '/' :: text).take above.length = above := by
    rw [← habove, List.append_assoc, List.take_left]
  simp only [dropTrailingComment, hlast, hbefore, hlength, htake, habove]

theorem kept_of_comment {c : Char} {cs text : List Char} (hc : isBlank c = false)
    (hcode : ∀ d ∈ lastLine (c :: cs), inCode d = true) (htext : '\n' ∉ text) :
    dropTrailingComment (trim (c :: cs ++ '/' :: '/' :: text)) = trimRight (c :: cs) := by
  have hcomment : trimRight ('/' :: '/' :: text) = '/' :: '/' :: trimRight text := by
    rw [trimRight_cons_of_not_blank (by decide), trimRight_cons_of_not_blank (by decide)]
  have htrim : trim (c :: cs ++ '/' :: '/' :: text) = c :: cs ++ '/' :: '/' :: trimRight text := by
    rw [trim, List.cons_append, trimLeft_cons hc, ← List.cons_append,
      trimRight_append_of_ne_nil (by simp [hcomment]), hcomment]
  have hkept : trimRight text <+: text := trimRight_prefix text
  have htrimmed : '\n' ∉ trimRight text := fun h => htext (hkept.subset h)
  rw [htrim, dropTrailingComment_comment hcode htrimmed]

end SchemaDiagram.Written
