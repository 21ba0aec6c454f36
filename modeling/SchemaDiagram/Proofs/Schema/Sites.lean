import Mathlib.Data.List.Basic
import SchemaDiagram.Proofs.Schema.Braces
import SchemaDiagram.Proofs.Text.Places
import SchemaDiagram.Proofs.Text.Reading
import SchemaDiagram.Schema.Block

/-!
In a text without angle brackets a literal is found for each constructor whose brace is closed,
whatever else stands in the text.
-/

namespace SchemaDiagram

open SchemaDiagram.Text

namespace Text

theorem exists_blanks1 {cs rest : List Char} (h : blanks1? cs = some rest) :
    ∃ gap, gap ≠ [] ∧ (∀ c ∈ gap, isBlank c = true) ∧ cs = gap ++ rest := by
  cases cs with
  | nil => exact absurd h (by simp [blanks1?])
  | cons c cs =>
      rw [blanks1?] at h
      split at h
      · next hc =>
          obtain ⟨gap, hgap, hsplit⟩ := exists_blanks cs
          obtain rfl := Option.some.inj h
          refine ⟨c :: gap, by simp, List.forall_mem_cons.2 ⟨hc, hgap⟩, ?_⟩
          rw [List.cons_append, ← hsplit]
      · exact absurd h (by simp)

theorem blanks1?_append {gap : List Char} (hne : gap ≠ []) (h : ∀ c ∈ gap, isBlank c = true)
    (rest : List Char) : blanks1? (gap ++ rest) = some (trimLeft rest) := by
  cases gap with
  | nil => exact absurd rfl hne
  | cons c gap =>
      obtain ⟨hc, hgap⟩ := List.forall_mem_cons.1 h
      rw [List.cons_append, blanks1?, if_pos hc, trimLeft_append_of_blank hgap]

theorem behind_none (p : List Char) : behind none p = p.getLast? := by
  rcases List.eq_nil_or_concat p with rfl | ⟨init, c, rfl⟩
  · rfl
  · rw [List.concat_eq_append, behind_concat, List.getLast?_concat]

end Text

structure PlainCall where
  behindNew : List Char
  qualified : Bool
  behindName : List Char
  inside : List Char
  apart : behindNew ≠ []
  blank : ∀ c ∈ behindNew ++ behindName ++ inside, isBlank c = true

namespace PlainCall

def qualifier (k : PlainCall) : List Char :=
  if k.qualified then "mongoose.".toList else []

def text (k : PlainCall) : List Char :=
  "new".toList ++ (k.behindNew ++ (k.qualifier ++ ("Schema".toList ++
    (k.behindName ++ ('(' :: k.inside)))))

end PlainCall

def ConstructorAt (cs : List Char) (p q : Nat) : Prop :=
  ∃ (before : List Char) (call : PlainCall) (rest : List Char),
    cs = before ++ (call.text ++ '{' :: rest) ∧ (∀ c ∈ before.getLast?, isWord c = false) ∧
      p = before.length ∧ q = p + call.text.length

section

variable {before : Option Char} {cs rest : List Char}

theorem dropTypeArguments_of_not_mem (h : '<' ∉ cs) : dropTypeArguments cs = cs := by
  cases cs with
  | nil => rfl
  | cons c cs =>
      have hc : c ≠ '<' := by
        rintro rfl
        exact h List.mem_cons_self
      simp [dropTypeArguments, typeArguments?, hc]

theorem exists_of_callStart? (hcs : '<' ∉ cs) (h : callStart? cs = some rest) :
    ∃ gap, (∀ c ∈ gap, isBlank c = true) ∧ cs = gap ++ '(' :: rest := by
  obtain ⟨gap, hgap, hsplit⟩ := exists_blanks cs
  have htrim : '<' ∉ trimLeft cs := by
    intro hmem
    rw [hsplit] at hcs
    exact hcs (List.mem_append_right gap hmem)
  rw [callStart?, dropTypeArguments_of_not_mem htrim, trimLeft_trimLeft,
    literal?_eq_some_iff] at h
  exact ⟨gap, hgap, hsplit.trans (congrArg (gap ++ ·) h.symm)⟩

theorem callStart?_append {gap : List Char} (hgap : ∀ c ∈ gap, isBlank c = true)
    (rest : List Char) : callStart? (gap ++ '(' :: rest) = some rest := by
  have hparen (tail : List Char) : trimLeft ('(' :: tail) = '(' :: tail :=
    trimLeft_cons (by decide) tail
  rw [callStart?, trimLeft_append_of_blank hgap, hparen]
  have harguments : dropTypeArguments ('(' :: rest) = '(' :: rest := rfl
  rw [harguments, hparen]
  exact literal?_append "(" rest

theorem exists_qualifier (h : literal? "Schema" (dropLiteral "mongoose." cs) = some rest) :
    ∃ qualified : Bool, cs = (if qualified then "mongoose.".toList else []) ++
      ("Schema".toList ++ rest) := by
  rw [dropLiteral, literal?_eq_some_iff] at h
  cases hread : literal? "mongoose." cs with
  | none =>
      rw [hread, Option.getD_none] at h
      exact ⟨false, h.symm⟩
  | some left =>
      rw [hread, Option.getD_some] at h
      rw [literal?_eq_some_iff] at hread
      exact ⟨true, by rw [h]; exact hread.symm⟩

theorem exists_of_constructor? (hcs : '<' ∉ cs)
    (h : constructorOfLiteral? before cs = some ((), rest)) :
    startsWord before = true ∧ ∃ (call : PlainCall) (tail : List Char),
      cs = call.text ++ '{' :: tail ∧ rest = '{' :: tail := by
  simp only [constructorOfLiteral?, constructorCall?, keyword?, Option.bind_eq_bind,
    Option.bind_eq_some_iff] at h
  obtain ⟨behindCall, ⟨behindNew, hnew, behindBlanks, hblanks, behindSchema, hschema, hcall⟩,
    hbrace⟩ := h
  split at hnew
  · next hstart =>
      rw [literal?_eq_some_iff] at hnew
      obtain ⟨gap, hne, hgap, rfl⟩ := exists_blanks1 hblanks
      obtain ⟨qualified, rfl⟩ := exists_qualifier hschema
      have hbehind : '<' ∉ behindSchema := by
        intro hmem
        rw [← hnew] at hcs
        refine hcs (List.mem_append_right _ (List.mem_append_right gap ?_))
        exact List.mem_append_right _ (List.mem_append_right _ hmem)
      obtain ⟨gap', hgap', rfl⟩ := exists_of_callStart? hbehind hcall
      obtain ⟨gap'', hgap'', hsplit⟩ := exists_blanks behindCall
      split at hbrace
      · next tail htrim =>
          rw [htrim] at hsplit
          have hblank : ∀ c ∈ gap ++ gap' ++ gap'', isBlank c = true := by
            intro c hc
            rw [List.mem_append, List.mem_append] at hc
            rcases hc with (hc | hc) | hc
            · exact hgap c hc
            · exact hgap' c hc
            · exact hgap'' c hc
          refine ⟨hstart, ⟨gap, qualified, gap', gap'', hne, hblank⟩, tail, ?_, ?_⟩
          · rw [← hnew, hsplit]
            simp only [PlainCall.text, PlainCall.qualifier, List.append_assoc, List.cons_append]
          · exact (Prod.mk.inj (Option.some.inj hbrace)).2.symm
      · exact absurd hbrace (by simp)
  · exact absurd hnew (by simp)

theorem dropLiteral_qualifier (call : PlainCall) (tail : List Char) :
    dropLiteral "mongoose." (call.qualifier ++ ("Schema".toList ++ tail)) =
      "Schema".toList ++ tail := by
  rw [PlainCall.qualifier]
  cases call.qualified with
  | true => rw [if_pos rfl, dropLiteral, literal?_append, Option.getD_some]
  | false => rfl

theorem trimLeft_qualifier (call : PlainCall) (tail : List Char) :
    trimLeft (call.qualifier ++ ("Schema".toList ++ tail)) =
      call.qualifier ++ ("Schema".toList ++ tail) := by
  rw [PlainCall.qualifier]
  cases call.qualified with
  | true => exact trimLeft_cons (c := 'm') (by decide) _
  | false => exact trimLeft_cons (c := 'S') (by decide) _

theorem constructor?_text (hbefore : startsWord before = true) (call : PlainCall)
    (tail : List Char) :
    constructorOfLiteral? before (call.text ++ '{' :: tail) = some ((), '{' :: tail) := by
  have hnew : ∀ c ∈ call.behindNew, isBlank c = true := fun c hc => call.blank c (by simp [hc])
  have hname : ∀ c ∈ call.behindName, isBlank c = true := fun c hc => call.blank c (by simp [hc])
  have hinside : ∀ c ∈ call.inside, isBlank c = true := fun c hc => call.blank c (by simp [hc])
  have htext : call.text ++ '{' :: tail = "new".toList ++ (call.behindNew ++ (call.qualifier ++
      ("Schema".toList ++ (call.behindName ++ '(' :: (call.inside ++ '{' :: tail))))) := by
    simp only [PlainCall.text, List.append_assoc, List.cons_append]
  have hbrace : trimLeft (call.inside ++ '{' :: tail) = '{' :: tail := by
    rw [trimLeft_append_of_blank hinside, trimLeft_cons (by decide)]
  have hcall : constructorCall? before (call.text ++ '{' :: tail) =
      some (call.inside ++ '{' :: tail) := by
    simp only [htext, constructorCall?, keyword?, if_pos hbefore, Option.bind_eq_bind,
      literal?_append, Option.bind_some, blanks1?_append call.apart hnew, trimLeft_qualifier,
      dropLiteral_qualifier, callStart?_append hname]
  simp only [constructorOfLiteral?, hcall, Option.bind_eq_bind, Option.bind_some, hbrace]

theorem head_behind_n {call : PlainCall} {c : Char} {p s : List Char}
    (h : call.text = c :: (p ++ 'n' :: s)) : s.head? = some 'g' := by
  -- Behind its first letter a call has an n in the qualifier only, and a g behind that one.
  have hnew : 'n' ∉ call.behindNew :=
    notMem_of_blank (fun d hd => call.blank d (by simp [hd])) (by decide)
  have hname : 'n' ∉ call.behindName :=
    notMem_of_blank (fun d hd => call.blank d (by simp [hd])) (by decide)
  have hinside : 'n' ∉ call.inside :=
    notMem_of_blank (fun d hd => call.blank d (by simp [hd])) (by decide)
  have hbehind : 'n' ∉ "Schema".toList ++ (call.behindName ++ '(' :: call.inside) := by
    refine List.not_mem_append (by decide) (List.not_mem_append hname ?_)
    exact List.not_mem_cons_of_ne_of_not_mem (by decide) hinside
  obtain ⟨-, hrest⟩ := List.cons.inj (show 'n' :: (['e', 'w'] ++ (call.behindNew ++
    (call.qualifier ++ ("Schema".toList ++ (call.behindName ++ '(' :: call.inside))))) =
      c :: (p ++ 'n' :: s) from h)
  rw [PlainCall.qualifier] at hrest
  cases hqualified : call.qualified with
  | false =>
      have hnone : 'n' ∉ ['e', 'w'] ++ (call.behindNew ++ ([] ++ ("Schema".toList ++
          (call.behindName ++ '(' :: call.inside)))) :=
        List.not_mem_append (by decide) (List.not_mem_append hnew hbehind)
      rw [hqualified, if_neg (by simp)] at hrest
      rw [hrest] at hnone
      exact absurd (List.mem_append_right p List.mem_cons_self) hnone
  | true =>
      have hsplit : ((['e', 'w'] ++ call.behindNew) ++ ['m', 'o']) ++ 'n' :: (['g', 'o', 'o', 's',
          'e', '.'] ++ ("Schema".toList ++ (call.behindName ++ '(' :: call.inside))) =
            p ++ 'n' :: s := by
        rw [hqualified, if_pos rfl] at hrest
        rw [← hrest, List.append_assoc, List.append_assoc]
        rfl
      have hearly : 'n' ∉ (['e', 'w'] ++ call.behindNew) ++ ['m', 'o'] :=
        List.not_mem_append (List.not_mem_append (by decide) hnew) (by decide)
      have hlate := List.not_mem_append (a := 'n') (s := ['g', 'o', 'o', 's', 'e', '.'])
        (by decide) hbehind
      obtain ⟨-, -, rfl⟩ := (List.append_cons_inj_of_notMem hearly hlate).1 hsplit
      rfl

theorem exists_text_eq_cons (call : PlainCall) : ∃ t, call.text = 'n' :: 'e' :: t :=
  ⟨_, rfl⟩

theorem apart_constructor? (h : '<' ∉ cs) : Apart constructorOfLiteral? cs := by
  intro c more hsuffix before a rest hread p s hmore hlt
  have hmem : '<' ∉ c :: more := fun hmem => h (hsuffix.subset hmem)
  obtain ⟨-, call, tail, htext, rfl⟩ := exists_of_constructor? hmem hread
  refine Option.eq_none_iff_forall_ne_some.2 fun found hagain => ?_
  have hlater : '<' ∉ s := by
    intro hs
    rw [hmore] at hmem
    exact hmem (List.mem_cons_of_mem c (List.mem_append_right p hs))
  obtain ⟨-, call', tail', rfl, -⟩ := exists_of_constructor? hlater hagain
  obtain ⟨t, ht⟩ := exists_text_eq_cons call
  obtain ⟨t', ht'⟩ := exists_text_eq_cons call'
  -- The later call starts within the earlier one, so that an n of that one has an e behind it.
  rw [ht, List.cons_append] at htext
  obtain ⟨rfl, rfl⟩ := List.cons.inj htext
  rw [ht', List.append_eq_append_iff] at hmore
  rcases hmore with ⟨more, rfl, -⟩ | ⟨inner, hinner, hbehind⟩
  · simp only [List.length_append, List.length_cons] at hlt
    omega
  · cases inner with
    | nil =>
        rw [List.append_nil] at hinner
        rw [← hinner] at hlt
        simp only [List.length_append, List.length_cons] at hlt
        omega
    | cons d inner =>
        obtain ⟨rfl, hinside⟩ := List.cons.inj hbehind
        have hg := head_behind_n (ht.trans (congrArg (List.cons 'n') hinner))
        cases inner with
        | nil => exact absurd hg (by simp)
        | cons e inner =>
            obtain ⟨rfl, -⟩ := List.cons.inj hinside
            exact absurd hg (by simp)

theorem apart_opening? (h : '<' ∉ cs) (length : Nat) : Apart (SchemaBlock.opening? length) cs := by
  intro c more hsuffix before a rest hread p s hmore hlt
  obtain ⟨⟨b, left⟩, hconstructor, hfound⟩ := Option.map_eq_some_iff.1 hread
  obtain ⟨-, rfl⟩ := Prod.mk.inj hfound
  have hnone := apart_constructor? h c more hsuffix before b left hconstructor p s hmore hlt
  rw [SchemaBlock.opening?, hnone, Option.map_none]

theorem startsWord_getLast? (p : List Char) :
    startsWord p.getLast? = true ↔ ∀ c ∈ p.getLast?, isWord c = false := by
  rw [startsWord]
  cases p.getLast? <;> simp

theorem mem_constructors_iff (h : '<' ∉ cs) {p q : Nat} :
    (p, q) ∈ SchemaBlock.constructors cs ↔ ConstructorAt cs p q := by
  rw [SchemaBlock.constructors, mem_findAll (apart_opening? h cs.length)]
  constructor
  · rintro ⟨early, late, rest, rfl, -, rfl, hread⟩
    obtain ⟨⟨b, left⟩, hconstructor, hfound⟩ := Option.map_eq_some_iff.1 hread
    have hlate : '<' ∉ late := fun hmem => h (List.mem_append_right early hmem)
    obtain ⟨hstart, call, tail, rfl, rfl⟩ := exists_of_constructor? hlate hconstructor
    rw [behind_none, startsWord_getLast?] at hstart
    refine ⟨early, call, tail, rfl, hstart, rfl, ?_⟩
    obtain ⟨rfl, -⟩ := Prod.mk.inj hfound
    simp only [List.length_append]
    omega
  · rintro ⟨early, call, tail, rfl, hstart, rfl, rfl⟩
    rw [← startsWord_getLast?, ← behind_none] at hstart
    refine ⟨early, call.text ++ '{' :: tail, '{' :: tail, rfl, by simp, rfl, ?_⟩
    rw [SchemaBlock.opening?, constructor?_text hstart, Option.map_some]
    simp only [List.length_append]
    congr 2
    omega

end

namespace SchemaBlock

theorem balanced?_eq_some_iff {cs : List Char} {site : Nat × Nat} {b : SchemaBlock} :
    balanced? (bracePairsFrom 0 [] cs) cs site = some b ↔
      site.1 = b.start ∧ ∃ j, Partner cs site.2 j ∧ b.text = between cs site.2 j := by
  obtain ⟨start, text⟩ := b
  rw [balanced?, Option.map_eq_some_iff]
  constructor
  · rintro ⟨j, hj, hb⟩
    obtain ⟨hstart, htext⟩ := SchemaBlock.mk.inj hb
    exact ⟨hstart, j, lookup_bracePairsFrom.1 hj, htext.symm⟩
  · rintro ⟨rfl, j, hj, rfl⟩
    exact ⟨j, lookup_bracePairsFrom.2 hj, rfl⟩

theorem pairwise_allIn (cs : List Char) : (allIn cs).Pairwise fun b c => b.start < c.start := by
  refine List.Pairwise.filterMap _ ?_ (pairwise_scan (opening? cs.length) 0 0 none cs)
  intro e f hlt b hb c hc
  rw [← (balanced?_eq_some_iff.1 hb).1, ← (balanced?_eq_some_iff.1 hc).1]
  exact hlt

theorem mem_allIn_iff_partner {cs : List Char} (h : '<' ∉ cs) :
    (allIn cs).Pairwise (fun b c => b.start < c.start) ∧
    ∀ b, b ∈ allIn cs ↔ ∃ q j, ConstructorAt cs b.start q ∧ Partner cs q j ∧
      b.text = between cs q j := by
  refine ⟨pairwise_allIn cs, fun b => ?_⟩
  rw [allIn, List.mem_filterMap]
  constructor
  · rintro ⟨⟨p, q⟩, hsite, hb⟩
    obtain ⟨rfl, j, hpartner, htext⟩ := balanced?_eq_some_iff.1 hb
    exact ⟨q, j, (mem_constructors_iff h).1 hsite, hpartner, htext⟩
  · rintro ⟨q, j, hsite, hpartner, htext⟩
    exact ⟨(b.start, q), (mem_constructors_iff h).2 hsite,
      balanced?_eq_some_iff.2 ⟨rfl, j, hpartner, htext⟩⟩

def nestedText : List Char :=
  "\x7d new Schema(\x7b a: new mongoose.Schema ( \x7b b: 1 \x7d ) \x7d); new Schema(\x7b c: \x7b".toList

theorem nestedText_inner_found :
    '<' ∉ nestedText ∧ ConstructorAt nestedText 18 40 ∧ Partner nestedText 40 47 ∧
    ⟨18, "\x7b b: 1 \x7d".toList⟩ ∈ allIn nestedText := by
  have hconstructor : ConstructorAt nestedText 18 40 := by
    refine ⟨nestedText.take 18, ⟨[' '], true, [' '], [' '], by decide, by decide⟩,
      nestedText.drop 41, by decide, fun c hc => ?_, rfl, rfl⟩
    obtain rfl : ' ' = c := Option.some.inj hc
    rfl
  have hbefore : ∀ i < 6, (between nestedText 40 (i + 41)).count '}' ≠
      (between nestedText 40 (i + 41)).count '{' := by
    decide
  have hpartner : Partner nestedText 40 47 := by
    refine ⟨by decide, by decide, by decide, fun k hk hk' => ?_⟩
    obtain ⟨i, rfl⟩ : ∃ i, k = i + 41 := ⟨k - 41, by omega⟩
    exact hbefore i (by omega)
  exact ⟨by decide, hconstructor, hpartner,
    ((mem_allIn_iff_partner (by decide)).2 _).2 ⟨40, 47, hconstructor, hpartner, by decide⟩⟩

end SchemaBlock

end SchemaDiagram
