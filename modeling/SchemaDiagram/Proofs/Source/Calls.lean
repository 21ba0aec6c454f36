import SchemaDiagram.Proofs.Text.Reading
import SchemaDiagram.Schema.Binding
import SchemaDiagram.Schema.Declaration

/-!
Where a constructor, a registration or an assignment cannot stand: within a word, between words, and
where something other than words, blanks and dots comes before the next parenthesis.
-/

namespace SchemaDiagram

open SchemaDiagram.Text

def leadsToCall (c : Char) : Bool :=
  isWord c || isBlank c || c == '.'

def opensCall (c : Char) : Bool :=
  c == '(' || c == '<'

section

variable {lead trigger : Char → Bool} {cs left : List Char}

theorem reaches_of_literal? {word : String} (hword : ∀ c ∈ word.toList, lead c = true)
    (h : literal? word cs = some left) (hleft : reaches lead trigger left = true) :
    reaches lead trigger cs = true := by
  rw [literal?_eq_some_iff] at h
  rw [← h]
  exact reaches_append_of_lead hword hleft

theorem reaches_of_dropLiteral (word : String) (hword : ∀ c ∈ word.toList, lead c = true)
    (h : reaches lead trigger (dropLiteral word cs) = true) : reaches lead trigger cs = true := by
  cases hread : literal? word cs with
  | none => rwa [dropLiteral_of_none hread] at h
  | some left =>
      rw [dropLiteral, hread] at h
      exact reaches_of_literal? hword hread h

theorem reaches_of_trimLeft (hblank : ∀ c, isBlank c = true → lead c = true)
    (h : reaches lead trigger (trimLeft cs) = true) : reaches lead trigger cs = true := by
  obtain ⟨gap, hgap, hsplit⟩ := exists_blanks cs
  rw [hsplit]
  exact reaches_append_of_lead (fun c hc => hblank c (hgap c hc)) h

end

theorem leadsToCall_of_isBlank (c : Char) (h : isBlank c = true) : leadsToCall c = true := by
  simp [leadsToCall, h]

theorem reaches_of_callStart? {cs rest : List Char} (h : callStart? cs = some rest) :
    reaches leadsToCall opensCall cs = true := by
  refine reaches_of_trimLeft leadsToCall_of_isBlank ?_
  rw [callStart?] at h
  cases htrim : trimLeft cs with
  | nil =>
      rw [htrim] at h
      exact absurd (show none = some rest from h) (by simp)
  | cons c tail =>
      by_cases hc : c = '<'
      · simp [reaches, opensCall, hc]
      · have harguments : dropTypeArguments (c :: tail) = c :: tail := by
          simp [dropTypeArguments, typeArguments?, hc]
        have hagain : trimLeft (c :: tail) = c :: tail := by
          rw [← htrim, trimLeft_trimLeft]
        rw [htrim, harguments, hagain, literal?_eq_some_iff] at h
        obtain ⟨rfl, -⟩ := List.cons.inj (show '(' :: rest = c :: tail from h)
        rfl

theorem guarded_constructorOfLiteral? :
    Guarded leadsToCall opensCall constructorOfLiteral? := by
  intro before cs found h
  simp only [constructorOfLiteral?, constructorCall?, keyword?, Option.bind_eq_bind,
    Option.bind_eq_some_iff] at h
  obtain ⟨behindCall, ⟨behindNew, hnew, behindBlanks, hblanks, behindSchema, hschema, hcall⟩, -⟩ :=
    h
  split at hnew
  · refine reaches_of_literal? (by decide) hnew ?_
    refine reaches_of_trimLeft leadsToCall_of_isBlank ?_
    rw [← blanks1?_eq_some hblanks]
    refine reaches_of_dropLiteral "mongoose." (by decide) ?_
    exact reaches_of_literal? (by decide) hschema (reaches_of_callStart? hcall)
  · exact absurd hnew (by simp)

theorem reaches_of_modelCall? {cs : List Char} {found : List Char × List Char}
    (h : Declaration.modelCall? cs = some found) : reaches leadsToCall opensCall cs = true := by
  simp only [Declaration.modelCall?, Option.bind_eq_bind, Option.bind_eq_some_iff] at h
  obtain ⟨behindModel, hmodel, behindCall, hcall, -⟩ := h
  refine reaches_of_dropLiteral "mongoose." (by decide) ?_
  exact reaches_of_literal? (by decide) hmodel (reaches_of_callStart? hcall)

theorem guarded_registration? : Guarded leadsToCall opensCall Declaration.registration? := by
  intro before cs found h
  unfold Declaration.registration? at h
  split at h
  · exact absurd h (by simp)
  · simp only [Option.bind_eq_bind, Option.bind_eq_some_iff] at h
    obtain ⟨call, hcall, -⟩ := h
    exact reaches_of_modelCall? hcall

theorem startsWord_of_isWord {c : Char} (h : isWord c = true) : startsWord (some c) = false := by
  simp [startsWord, h]

theorem worded_constructorOfLiteral? : Worded constructorOfLiteral? where
  within c cs hc := by
    simp [constructorOfLiteral?, constructorCall?, keyword?, startsWord_of_isWord hc]
  between before c cs hc := by
    have hnone : literal? "new" (c :: cs) = none :=
      literal?_of_not_word (by decide) (by decide) hc cs
    simp [constructorOfLiteral?, constructorCall?, keyword?, hnone]
  atEnd before := by
    have hnone : literal? "new" [] = none := rfl
    simp [constructorOfLiteral?, constructorCall?, keyword?, hnone]

theorem modelCall?_of_not_word {c : Char} (hc : isWord c = false) (cs : List Char) :
    Declaration.modelCall? (c :: cs) = none := by
  have hdrop : dropLiteral "mongoose." (c :: cs) = c :: cs :=
    dropLiteral_of_none (literal?_of_not_word (by decide) (by decide) hc cs)
  have hnone : literal? "model" (c :: cs) = none :=
    literal?_of_not_word (by decide) (by decide) hc cs
  simp [Declaration.modelCall?, hdrop, hnone]

theorem worded_registration? : Worded Declaration.registration? where
  within c cs hc := by
    simp [Declaration.registration?, startsWord_of_isWord hc]
  between before c cs hc := by
    simp [Declaration.registration?, modelCall?_of_not_word hc]
  atEnd before := by
    have hnone : Declaration.modelCall? [] = none := rfl
    simp [Declaration.registration?, hnone]

def leadsToEquals (c : Char) : Bool :=
  isWord c || isBlank c

theorem isWord_keyword {word : String} (h : word ∈ ["const", "let", "var", "export"]) :
    (∀ c ∈ word.toList, isWord c = true) ∧ word.toList ≠ [] := by
  simp only [List.mem_cons, List.not_mem_nil, or_false] at h
  rcases h with rfl | rfl | rfl | rfl <;> decide

theorem bindingKeyword?_eq_some {before : Option Char} {cs left : List Char}
    (h : Declaration.bindingKeyword? before cs = some left) :
    startsWord before = true ∧
      ∃ word ∈ ["const", "let", "var", "export"], literal? word cs = some left := by
  unfold Declaration.bindingKeyword? at h
  split at h
  · next hstart =>
      obtain ⟨word, hmem, hread⟩ := List.exists_of_findSome?_eq_some h
      exact ⟨hstart, word, hmem, hread⟩
  · exact absurd h (by simp)

theorem assignment?_eq_some {before : Option Char} {cs : List Char}
    {found : (List Char × List Char) × List Char}
    (h : Declaration.assignment? before cs = some found) :
    startsWord before = true ∧ ∃ word ∈ ["const", "let", "var", "export"],
      ∃ behindKeyword name rest left, literal? word cs = some behindKeyword ∧
        blanks1? behindKeyword = some (name ++ rest) ∧ (∀ c ∈ name, isWord c = true) ∧
        name ≠ [] ∧ literal? "=" (trimLeft rest) = some left := by
  simp only [Declaration.assignment?, Option.bind_eq_bind, Option.bind_eq_some_iff] at h
  obtain ⟨behindKeyword, hkeyword, behindBlanks, hblanks, ⟨name, rest⟩, hname, left, hleft, -⟩ := h
  obtain ⟨hstart, word, hmem, hread⟩ := bindingKeyword?_eq_some hkeyword
  obtain ⟨rfl, hne⟩ := word?_eq_some hname
  exact ⟨hstart, word, hmem, behindKeyword, name, rest, left, hread, hblanks,
    List.all_eq_true.1 (isWord_of_word? hname), hne, hleft⟩

theorem guarded_assignment? : Guarded leadsToEquals (· == '=') Declaration.assignment? := by
  intro before cs found h
  obtain ⟨-, word, hmem, behindKeyword, name, rest, left, hread, hblanks, hname, -, hleft⟩ :=
    assignment?_eq_some h
  have hblank (c : Char) (h : isBlank c = true) : leadsToEquals c = true := by
    simp [leadsToEquals, h]
  have hword (c : Char) (h : isWord c = true) : leadsToEquals c = true := by
    simp [leadsToEquals, h]
  refine reaches_of_literal? (fun c hc => hword c ((isWord_keyword hmem).1 c hc)) hread ?_
  refine reaches_of_trimLeft hblank ?_
  rw [← blanks1?_eq_some hblanks]
  refine reaches_append_of_lead (fun c hc => hword c (hname c hc)) ?_
  refine reaches_of_trimLeft hblank ?_
  rw [literal?_eq_some_iff] at hleft
  rw [← hleft]
  rfl

theorem worded_assignment? : Worded Declaration.assignment? where
  within c cs hc := by
    refine Option.eq_none_iff_forall_ne_some.2 fun found h => ?_
    have hstart := (assignment?_eq_some h).1
    rw [startsWord_of_isWord hc] at hstart
    exact absurd hstart (by simp)
  between before c cs hc := by
    refine Option.eq_none_iff_forall_ne_some.2 fun found h => ?_
    obtain ⟨-, word, hmem, behindKeyword, -, -, -, hread, -⟩ := assignment?_eq_some h
    obtain ⟨hword, hne⟩ := isWord_keyword hmem
    have hhead : word.toList.head?.all isWord = true := by
      cases hchars : word.toList with
      | nil => rfl
      | cons d ds => exact hword d (by simp [hchars])
    rw [literal?_of_not_word hne hhead hc] at hread
    exact absurd hread (by simp)
  atEnd before := by
    refine Option.eq_none_iff_forall_ne_some.2 fun found h => ?_
    obtain ⟨-, word, hmem, behindKeyword, -, -, -, hread, -⟩ := assignment?_eq_some h
    rw [literal?_eq_some_iff] at hread
    exact (isWord_keyword hmem).2 (List.append_eq_nil_iff.1 hread).1

end SchemaDiagram
