import SchemaDiagram.Proofs.Schema.Braces
import SchemaDiagram.Proofs.Source.Calls
import SchemaDiagram.Proofs.Source.Literals
import SchemaDiagram.Schema.Block

namespace SchemaDiagram

open SchemaDiagram.Text

def Enclosed (s : List Char) : Prop :=
  ∀ place, ∃ pairs : List (Nat × Nat),
    (∀ pair ∈ pairs, place ≤ pair.1 ∧ pair.1 < place + s.length) ∧
    ∀ opened rest, bracePairsFrom place opened (s ++ rest) =
      pairs ++ bracePairsFrom (place + s.length) opened rest

namespace Enclosed

variable {s t : List Char}

theorem nil : Enclosed [] :=
  fun _ => ⟨[], by simp, fun _ _ => rfl⟩

theorem append (hs : Enclosed s) (ht : Enclosed t) : Enclosed (s ++ t) := by
  intro place
  obtain ⟨ps, hps, hs⟩ := hs place
  obtain ⟨qs, hqs, ht⟩ := ht (place + s.length)
  refine ⟨ps ++ qs, ?_, ?_⟩
  · intro pair hpair
    rw [List.length_append]
    rcases List.mem_append.1 hpair with h | h
    · have hp := hps pair h
      omega
    · have hq := hqs pair h
      omega
  · intro opened rest
    rw [List.append_assoc, hs, ht, List.append_assoc, List.length_append, Nat.add_assoc]

theorem cons {c : Char} (hopen : c ≠ '{') (hclose : c ≠ '}') (hs : Enclosed s) :
    Enclosed (c :: s) := by
  intro place
  obtain ⟨ps, hps, hs⟩ := hs (place + 1)
  refine ⟨ps, ?_, ?_⟩
  · intro pair hpair
    have hp := hps pair hpair
    rw [List.length_cons]
    omega
  · intro opened rest
    rw [List.cons_append, bracePairsFrom_other hopen hclose, hs, List.length_cons]
    congr 2
    omega

theorem of_forall (h : ∀ c ∈ s, c ≠ '{' ∧ c ≠ '}') : Enclosed s := by
  induction s with
  | nil => exact nil
  | cons c s ih =>
      obtain ⟨hopen, hclose⟩ := h c (by simp)
      exact cons hopen hclose (ih fun d hd => h d (List.mem_cons_of_mem _ hd))

theorem pairs_braces (hs : Enclosed s) (place : Nat) :
    ∃ pairs : List (Nat × Nat), (∀ pair ∈ pairs, place < pair.1 ∧ pair.1 < place + 1 + s.length) ∧
      ∀ opened rest, bracePairsFrom place opened ('{' :: s ++ '}' :: rest) =
        pairs ++ (place, place + 1 + s.length) ::
          bracePairsFrom (place + 1 + s.length + 1) opened rest := by
  obtain ⟨ps, hps, hs⟩ := hs (place + 1)
  refine ⟨ps, ?_, ?_⟩
  · intro pair hpair
    have hp := hps pair hpair
    omega
  · intro opened rest
    rw [List.cons_append, bracePairsFrom_open, hs]
    rfl

theorem braces (hs : Enclosed s) : Enclosed ('{' :: s ++ ['}']) := by
  intro place
  obtain ⟨ps, hps, hs⟩ := hs.pairs_braces place
  refine ⟨ps ++ [(place, place + 1 + s.length)], ?_, ?_⟩
  · intro pair hpair
    simp only [List.length_append, List.length_cons, List.length_nil]
    rcases List.mem_append.1 hpair with h | h
    · have hp := hps pair h
      omega
    · obtain rfl := List.mem_singleton.1 h
      omega
  · intro opened rest
    rw [List.append_assoc, List.singleton_append, hs]
    simp only [List.append_assoc, List.singleton_append, List.length_append, List.length_cons,
      List.length_nil]
    congr 3
    omega

theorem joinWith {sep : List Char} {pieces : List (List Char)} (hsep : Enclosed sep)
    (hpieces : ∀ piece ∈ pieces, Enclosed piece) : Enclosed (joinWith sep pieces) :=
  joinWith_of_append nil (fun _ _ => append) hsep hpieces

end Enclosed

theorem lookup_of_forall_ne {pairs : List (Nat × Nat)} {key : Nat} (h : ∀ p ∈ pairs, p.1 ≠ key)
    (rest : List (Nat × Nat)) : (pairs ++ rest).lookup key = rest.lookup key := by
  induction pairs with
  | nil => rfl
  | cons p ps ih =>
      have hne : (key == p.1) = false := by simpa using (h p (by simp)).symm
      rw [List.cons_append, List.lookup_cons, hne]
      exact ih fun q hq => h q (List.mem_cons_of_mem _ hq)

theorem lookup_bracePairs {before s : List Char} (hbefore : Enclosed before) (hs : Enclosed s)
    (rest : List Char) :
    (bracePairsFrom 0 [] (before ++ ('{' :: s ++ '}' :: rest))).lookup before.length =
      some (before.length + 1 + s.length) := by
  obtain ⟨ps, hps, hpairs⟩ := hbefore 0
  obtain ⟨qs, hqs, hinner⟩ := hs.pairs_braces before.length
  rw [hpairs, Nat.zero_add, hinner, lookup_of_forall_ne, lookup_of_forall_ne]
  · simp
  · intro q hq
    have h := hqs q hq
    omega
  · intro p hp
    have h := hps p hp
    omega

namespace Written

section

variable {α : Type} {read : Recogniser α} {before : Option Char}

theorem scan_closer (hw : Worded read) (place : Nat) (rest : List Char) :
    scan read 0 place before (closer ++ rest) = scan read 0 (place + 3) (some '\n') rest := by
  simp only [closer, List.cons_append, List.nil_append]
  rw [hw.scan_cons (by decide), hw.scan_cons (by decide), hw.scan_cons (by decide)]

theorem scan_quiet_closer {lead trigger : Char → Bool} (hw : Worded read)
    (hg : Guarded lead trigger read) (hfence : lead ')' = false ∧ trigger ')' = false)
    {q : List Char} (hq : ∀ c ∈ q, trigger c = false) (place : Nat) (rest : List Char) :
    scan read 0 place before (q ++ (closer ++ rest)) =
      scan read 0 (place + q.length + 3) (some '\n') rest := by
  have hreach : reaches lead trigger (closer ++ rest) = false := by
    simp [closer, reaches, hfence]
  rw [scan_append_of_quiet hg place hq hreach, scan_closer hw]

theorem opensCall_of_inLiteral {c : Char} (h : inLiteral c = true) : opensCall c = false := by
  simp [opensCall, ne_of_inLiteral h (d := '(') (by decide),
    ne_of_inLiteral h (d := '<') (by decide)]

theorem opensCall_of_isWord {c : Char} (h : isWord c = true) : opensCall c = false :=
  opensCall_of_inLiteral (inLiteral_of_inBody (inBody_of_isWord h))

theorem inLiteral_member (m : Member) : ∀ c ∈ m.text, inLiteral c = true :=
  inLiteral_spoken m.name.isWord m.value.inLiteral_text

theorem inLiteral_literal (s : Schema) : ∀ c ∈ s.literal, inLiteral c = true := by
  refine inLiteral_objectText fun piece hpiece => ?_
  obtain ⟨m, -, rfl⟩ := List.mem_map.1 hpiece
  exact inLiteral_member m

def announced (name var : Word) : List Char :=
  quotedText name ++ separator ++ var.chars

theorem Schema.registration_eq {s : Schema} {name : Word} (h : s.registered = some name) :
    s.registration = mongooseModel ++ (announced name s.var ++ closer) := by
  simp [Schema.registration, Schema.registrationAs, announced, h]

theorem inLiteral_announced (name var : Word) :
    ∀ c ∈ announced name var, inLiteral c = true := by
  intro c hc
  simp only [announced, List.mem_append] at hc
  rcases hc with (hc | hc) | hc
  · exact inLiteral_of_inBody (inBody_quotedText name c hc)
  · revert c
    decide
  · exact inLiteral_of_inBody (inBody_of_isWord (var.isWord c hc))

variable (hw : Worded read) (hg : Guarded leadsToCall opensCall read)
include hw hg

theorem scan_binding (s : Schema) (place : Nat) (rest : List Char) :
    scan read 0 place before (s.binding ++ rest) =
      scan read 0 (place + s.binding.length) (some ' ') rest := by
  have htext : s.binding ++ rest = (['c', 'o', 'n', 's', 't', ' '] ++ s.var.chars ++ [' ']) ++
      '=' :: ' ' :: rest := by
    simp [Schema.binding]
  have hq : ∀ c ∈ ['c', 'o', 'n', 's', 't', ' '] ++ s.var.chars ++ [' '],
      opensCall c = false := by
    intro c hc
    simp only [List.mem_append] at hc
    rcases hc with (hc | hc) | hc
    · revert c
      decide
    · exact opensCall_of_isWord (s.var.isWord c hc)
    · revert c
      decide
  rw [htext, scan_append_of_quiet hg place hq rfl, hw.scan_cons (by decide),
    hw.scan_cons (by decide)]
  congr 1
  simp only [Schema.binding, List.length_append, List.length_cons, List.length_nil]
  omega

theorem scan_literal (s : Schema) (place : Nat) (rest : List Char) :
    scan read 0 place before (s.literal ++ (closer ++ rest)) =
      scan read 0 (place + s.literal.length + 3) (some '\n') rest :=
  scan_quiet_closer hw hg ⟨by decide, by decide⟩
    (fun c hc => opensCall_of_inLiteral (inLiteral_literal s c hc)) place rest

theorem scan_announced (name var : Word) (place : Nat) (rest : List Char) :
    scan read 0 place before (announced name var ++ (closer ++ rest)) =
      scan read 0 (place + (announced name var).length + 3) (some '\n') rest :=
  scan_quiet_closer hw hg ⟨by decide, by decide⟩
    (fun c hc => opensCall_of_inLiteral (inLiteral_announced name var c hc)) place rest

end

theorem worded_opening? (length : Nat) : Worded (SchemaBlock.opening? length) :=
  worded_constructorOfLiteral?.map _

theorem guarded_opening? (length : Nat) :
    Guarded leadsToCall opensCall (SchemaBlock.opening? length) :=
  guarded_constructorOfLiteral?.map _

theorem scan_construction (s : Schema) (place : Nat) (rest : List Char) {length : Nat}
    (hlength : length = place + (s.construction ++ rest).length) :
    scan (SchemaBlock.opening? length) 0 place (some ' ') (s.construction ++ rest) =
      (place, place + newSchema.length) ::
        scan (SchemaBlock.opening? length) 0 (place + s.construction.length) (some '\n') rest := by
  have htext : s.construction ++ rest = newSchema ++ (s.literal ++ (closer ++ rest)) := by
    simp [Schema.construction]
  have hread : SchemaBlock.opening? length (some ' ')
      (newSchema ++ (s.literal ++ (closer ++ rest))) =
        some (length - (s.literal ++ (closer ++ rest)).length, s.literal ++ (closer ++ rest)) := rfl
  rw [htext, scan_of_read place (by decide) hread,
    scan_literal (worded_opening? length) (guarded_opening? length)]
  congr 2
  · rw [hlength, htext]
    simp only [List.length_append]
    omega
  · simp only [Schema.construction, List.length_append, show closer.length = 3 from rfl]
    omega

theorem scan_registration (s : Schema) (place length : Nat) (rest : List Char) :
    scan (SchemaBlock.opening? length) 0 place (some '\n') (s.registration ++ rest) =
      scan (SchemaBlock.opening? length) 0 (place + s.registration.length) (some '\n') rest := by
  cases hname : s.registered with
  | none => simp [Schema.registration, hname]
  | some name =>
      have htext : s.registration ++ rest =
          mongooseModel ++ (announced name s.var ++ (closer ++ rest)) := by
        simp [Schema.registration_eq hname]
      have hskip : scan (SchemaBlock.opening? length) 0 place (some '\n')
          (mongooseModel ++ (announced name s.var ++ (closer ++ rest))) =
            scan (SchemaBlock.opening? length) 0 (place + mongooseModel.length) (some '(')
              (announced name s.var ++ (closer ++ rest)) := rfl
      rw [htext, hskip, scan_announced (worded_opening? length) (guarded_opening? length)]
      congr 1
      simp only [Schema.registration_eq hname, List.length_append, show closer.length = 3 from rfl]
      omega

theorem scan_text (s : Schema) (place : Nat) (rest : List Char) {length : Nat}
    {before : Option Char} (hlength : length = place + (s.text ++ rest).length) :
    scan (SchemaBlock.opening? length) 0 place before (s.text ++ rest) =
      (place + s.binding.length, place + s.binding.length + newSchema.length) ::
        scan (SchemaBlock.opening? length) 0 (place + s.text.length) (some '\n') rest := by
  have htext : s.text ++ rest = s.binding ++ (s.construction ++ (s.registration ++ rest)) := by
    simp [Schema.text]
  have hconstruction : length = place + s.binding.length +
      (s.construction ++ (s.registration ++ rest)).length := by
    rw [hlength, htext]
    simp only [List.length_append]
    omega
  rw [htext, scan_binding (worded_opening? length) (guarded_opening? length),
    scan_construction s _ _ hconstruction, scan_registration]
  simp only [Schema.text, List.length_append, Nat.add_assoc]

theorem enclosed_objectText {pieces : List (List Char)} (h : ∀ piece ∈ pieces, Enclosed piece) :
    Enclosed (objectText pieces) := by
  have hinner : Enclosed (' ' :: (joinWith separator pieces ++ [' '])) :=
    .cons (by decide) (by decide)
      (.append (.joinWith (.of_forall (by decide)) h) (.of_forall (by decide)))
  have htext : objectText pieces = '{' :: ' ' :: (joinWith separator pieces ++ [' ']) ++ ['}'] := by
    simp [objectText]
  rw [htext]
  exact hinner.braces

theorem enclosed_of_word {cs : List Char} (h : ∀ c ∈ cs, isWord c = true) : Enclosed cs :=
  .of_forall fun c hc => ⟨ne_of_isWord (h c hc) (by decide), ne_of_isWord (h c hc) (by decide)⟩

theorem enclosed_of_inBody {cs : List Char} (h : ∀ c ∈ cs, inBody c = true) : Enclosed cs :=
  .of_forall fun c hc => ⟨ne_of_inBody (h c hc) (by decide), ne_of_inBody (h c hc) (by decide)⟩

theorem enclosed_spoken {name body : List Char} (hname : ∀ c ∈ name, isWord c = true)
    (hbody : Enclosed body) : Enclosed (name ++ ':' :: ' ' :: body) :=
  (enclosed_of_word hname).append
    (.cons (by decide) (by decide) (.cons (by decide) (by decide) hbody))

theorem enclosed_value (v : Value) : Enclosed v.text := by
  cases v with
  | plain type => exact enclosed_of_word (isWord_typeName type)
  | array type =>
      exact .cons (by decide) (by decide)
        ((enclosed_of_word (isWord_typeName type)).append (.of_forall (by decide)))
  | object type traits =>
      refine enclosed_objectText fun piece hpiece => ?_
      obtain ⟨a, ha, rfl⟩ := List.mem_map.1 hpiece
      exact enclosed_spoken (plain_entries type traits a ha).label_isWord
        (enclosed_of_inBody (inBody_entries type traits a ha))

def Schema.inside (s : Schema) : List Char :=
  ' ' :: (joinWith separator (s.members.map Member.text) ++ [' '])

theorem Schema.literal_eq (s : Schema) : s.literal = '{' :: s.inside ++ ['}'] := by
  simp [Schema.literal, objectText, Schema.inside]

theorem enclosed_inside (s : Schema) : Enclosed s.inside := by
  have hmembers : Enclosed (joinWith separator (s.members.map Member.text)) := by
    refine .joinWith (.of_forall (by decide)) fun piece hpiece => ?_
    obtain ⟨m, -, rfl⟩ := List.mem_map.1 hpiece
    exact enclosed_spoken m.name.isWord (enclosed_value m.value)
  exact .cons (by decide) (by decide) (hmembers.append (.of_forall (by decide)))

theorem enclosed_binding (s : Schema) : Enclosed s.binding :=
  (Enclosed.append (.of_forall (by decide)) (enclosed_of_word s.var.isWord)).append
    (.of_forall (by decide))

theorem enclosed_registration (s : Schema) : Enclosed s.registration := by
  cases hname : s.registered with
  | none => simpa [Schema.registration, hname] using Enclosed.nil
  | some name =>
      have hquoted : Enclosed (quotedText name) := enclosed_of_inBody (inBody_quotedText name)
      have hcall : Enclosed (s.registrationAs name) :=
        Enclosed.append (.of_forall (by decide))
          (((hquoted.append (.of_forall (by decide))).append
            (enclosed_of_word s.var.isWord)).append (.of_forall (by decide)))
      simpa [Schema.registration, hname] using hcall

theorem enclosed_text (s : Schema) : Enclosed s.text := by
  have hliteral : Enclosed s.literal := by
    rw [s.literal_eq]
    exact (enclosed_inside s).braces
  have hconstruction : Enclosed s.construction :=
    Enclosed.append (.of_forall (by decide)) (hliteral.append (.of_forall (by decide)))
  exact ((enclosed_binding s).append hconstruction).append (enclosed_registration s)

def blocksFrom (place : Nat) : List Schema → List SchemaBlock
  | [] => []
  | s :: ss => ⟨place + s.binding.length, s.literal⟩ :: blocksFrom (place + s.text.length) ss

def site (b : SchemaBlock) : Nat × Nat :=
  (b.start, b.start + newSchema.length)

theorem sourceText_cons (s : Schema) (ss : List Schema) :
    sourceText (s :: ss) = s.text ++ sourceText ss := by
  simp [sourceText]

theorem scan_sourceText (schemas : List Schema) {length place : Nat} {before : Option Char}
    (hlength : length = place + (sourceText schemas).length) :
    scan (SchemaBlock.opening? length) 0 place before (sourceText schemas) =
      (blocksFrom place schemas).map site := by
  induction schemas generalizing place before with
  | nil => rfl
  | cons s ss ih =>
      rw [sourceText_cons] at hlength
      have hrest : length = place + s.text.length + (sourceText ss).length := by
        rw [hlength, List.length_append, Nat.add_assoc]
      rw [sourceText_cons, scan_text s place _ hlength, ih hrest]
      rfl

theorem balanced?_literal (s : Schema) {before : List Char} (hbefore : Enclosed before)
    (start : Nat) (rest : List Char) :
    SchemaBlock.balanced? (bracePairsFrom 0 [] (before ++ (s.literal ++ rest)))
        (before ++ (s.literal ++ rest)) (start, before.length) = some ⟨start, s.literal⟩ := by
  have htext : s.literal ++ rest = '{' :: s.inside ++ '}' :: rest := by simp [s.literal_eq]
  have hlookup := lookup_bracePairs hbefore (enclosed_inside s) rest
  have hlength : s.literal.length = before.length + 1 + s.inside.length + 1 - before.length := by
    rw [s.literal_eq, List.length_append, List.length_cons, List.length_singleton]
    omega
  rw [← htext] at hlookup
  simp only [SchemaBlock.balanced?, hlookup, Option.map_some, List.drop_left, ← hlength,
    List.take_left]

theorem filterMap_blocksFrom (schemas : List Schema) {before : List Char}
    (hbefore : Enclosed before) {cs : List Char} (hcs : cs = before ++ sourceText schemas) :
    ((blocksFrom before.length schemas).map site).filterMap
        (SchemaBlock.balanced? (bracePairsFrom 0 [] cs) cs) =
      blocksFrom before.length schemas := by
  induction schemas generalizing before with
  | nil => rfl
  | cons s ss ih =>
      -- What stands before the brace is enclosed, so that no pair of it starts at the brace.
      have hopening : Enclosed (before ++ s.binding ++ newSchema) :=
        (hbefore.append (enclosed_binding s)).append (.of_forall (by decide))
      have hsplit : cs = (before ++ s.binding ++ newSchema) ++
          (s.literal ++ (closer ++ (s.registration ++ sourceText ss))) := by
        simp [hcs, sourceText_cons, Schema.text, Schema.construction]
      have hhead := balanced?_literal s hopening (before.length + s.binding.length)
        (closer ++ (s.registration ++ sourceText ss))
      rw [← hsplit, List.length_append, List.length_append] at hhead
      have htail := ih (hbefore.append (enclosed_text s)) (by simp [hcs, sourceText_cons])
      rw [List.length_append] at htail
      rw [blocksFrom, List.map_cons, List.filterMap_cons, site, hhead, htail]

theorem allIn_sourceText (schemas : List Schema) :
    SchemaBlock.allIn (sourceText schemas) = blocksFrom 0 schemas := by
  have hsites : SchemaBlock.constructors (sourceText schemas) = (blocksFrom 0 schemas).map site :=
    scan_sourceText schemas (Nat.zero_add _).symm
  rw [SchemaBlock.allIn, hsites]
  exact filterMap_blocksFrom schemas .nil rfl

end Written

end SchemaDiagram
