import SchemaDiagram.Proofs.Source.Blocks

namespace SchemaDiagram.Written

open SchemaDiagram.Text
open SchemaDiagram.Declaration

def Schema.declared (s : Schema) : Option (List Char × List Char) :=
  s.registered.map fun name => (s.var.chars, name.chars)

theorem registration?_announced (name var : Word) (rest : List Char) :
    registration? (some '\n') ((mongooseModel ++ announced name var) ++ (closer ++ rest)) =
      some ((var.chars, name.chars), closer ++ rest) := by
  have htext : (mongooseModel ++ announced name var) ++ (closer ++ rest) =
      mongooseModel ++ (quotedText name ++ (separator ++ (var.chars ++ (closer ++ rest)))) := by
    simp [announced]
  have hcall : modelCall? (mongooseModel ++
      (quotedText name ++ (separator ++ (var.chars ++ (closer ++ rest))))) =
        some (name.chars, separator ++ (var.chars ++ (closer ++ rest))) :=
    quotedName?_quotedText name (separator ++ (var.chars ++ (closer ++ rest)))
  have hcomma : literal? "," (trimLeft (separator ++ (var.chars ++ (closer ++ rest)))) =
      some (' ' :: (var.chars ++ (closer ++ rest))) := rfl
  have htrim : trimLeft (' ' :: (var.chars ++ (closer ++ rest))) =
      var.chars ++ (closer ++ rest) := by
    rw [trimLeft_blank (by decide)]
    exact var.trimmed.trimLeft_append var.nonempty _
  have hvar : word? (var.chars ++ (closer ++ rest)) = some (var.chars, closer ++ rest) :=
    word?_append var.nonempty var.isWord rfl
  have hstart : startsWord (some '\n') = true := by decide
  rw [htext]
  simp [registration?, hstart, hcall, hcomma, htrim, hvar]

theorem scan_registrations (s : Schema) (place : Nat) (before : Option Char) (rest : List Char) :
    (scan registration? 0 place before (s.text ++ rest)).map Prod.snd =
      s.declared.toList ++
        (scan registration? 0 (place + s.text.length) (some '\n') rest).map Prod.snd := by
  have htext : s.text ++ rest =
      s.binding ++ (newSchema ++ (s.literal ++ (closer ++ (s.registration ++ rest)))) := by
    simp [Schema.text, Schema.construction]
  have hskip (n : Nat) (tail : List Char) : scan registration? 0 n (some ' ') (newSchema ++ tail) =
      scan registration? 0 (n + newSchema.length) (some '(') tail := rfl
  rw [htext, scan_binding worded_registration? guarded_registration?, hskip,
    scan_literal worded_registration? guarded_registration?]
  cases hname : s.registered with
  | none =>
      simp [Schema.registration, Schema.text, Schema.construction, Schema.declared, hname, closer,
        Nat.add_assoc]
  | some name =>
      have hregistration : s.registration ++ rest =
          (mongooseModel ++ announced name s.var) ++ (closer ++ rest) := by
        simp [Schema.registration_eq hname]
      rw [hregistration, scan_of_read _ (by simp [mongooseModel])
        (registration?_announced name s.var rest), scan_closer worded_registration?]
      have hplace : place + s.text.length =
          place + s.binding.length + newSchema.length + s.literal.length + 3 +
            (mongooseModel ++ announced name s.var).length + 3 := by
        simp only [Schema.text, Schema.construction, Schema.registration_eq hname,
          List.length_append, show closer.length = 3 from rfl]
        omega
      simp [Schema.declared, hname, hplace]

theorem registrations_sourceText (schemas : List Schema) (place : Nat) (before : Option Char) :
    (scan registration? 0 place before (sourceText schemas)).map Prod.snd =
      schemas.filterMap Schema.declared := by
  induction schemas generalizing place before with
  | nil => rfl
  | cons s ss ih =>
      rw [sourceText_cons, scan_registrations, ih, List.filterMap_cons]
      cases s.declared <;> rfl

theorem inLiteral_ne_equals {c : Char} (h : inLiteral c = true) : (c == '=') = false := by
  simpa using ne_of_inLiteral h (d := '=') (by decide)

theorem assignment?_binding (s : Schema) (before : Option Char) (rest : List Char) :
    assignment? before (s.binding ++ (newSchema ++ rest)) = none := by
  cases hstart : startsWord before with
  | false => simp [assignment?, bindingKeyword?, hstart]
  | true =>
      have hblanks : blanks1? (' ' :: (s.var.chars ++ ' ' :: '=' :: ' ' :: (newSchema ++ rest))) =
          some (s.var.chars ++ ' ' :: '=' :: ' ' :: (newSchema ++ rest)) := by
        have htrim := s.var.trimmed.trimLeft_append s.var.nonempty
          (' ' :: '=' :: ' ' :: (newSchema ++ rest))
        rw [blanks1?, if_pos (by decide), htrim]
      have hvar : word? (s.var.chars ++ ' ' :: '=' :: ' ' :: (newSchema ++ rest)) =
          some (s.var.chars, ' ' :: '=' :: ' ' :: (newSchema ++ rest)) :=
        word?_append s.var.nonempty s.var.isWord rfl
      have hequals : literal? "=" (trimLeft (' ' :: '=' :: ' ' :: (newSchema ++ rest))) =
          some (' ' :: (newSchema ++ rest)) := rfl
      have hcall : modelCall? (trimLeft (' ' :: (newSchema ++ rest))) = none := rfl
      have hkeyword : bindingKeyword? before (s.binding ++ (newSchema ++ rest)) =
          some (' ' :: (s.var.chars ++ ' ' :: '=' :: ' ' :: (newSchema ++ rest))) := by
        have htext : s.binding ++ (newSchema ++ rest) = "const".toList ++
            ' ' :: (s.var.chars ++ ' ' :: '=' :: ' ' :: (newSchema ++ rest)) := by
          simp [Schema.binding]
        rw [bindingKeyword?, if_pos hstart, htext, List.findSome?_cons, literal?_append]
      simp [assignment?, hkeyword, hblanks, hvar, hequals, hcall]

theorem assignment?_variable (var : Word) (before : Option Char) (rest : List Char) :
    assignment? before (var.chars ++ ' ' :: '=' :: rest) = none := by
  refine Option.eq_none_iff_forall_ne_some.2 fun found h => ?_
  obtain ⟨-, word, hmem, behindKeyword, name, more, -, hread, hblanks, hname, hne, -⟩ :=
    assignment?_eq_some h
  obtain ⟨w', hvar, rfl⟩ := word_of_literal? (isWord_keyword hmem).1 (by rfl) hread
  cases w' with
  | nil =>
      cases name with
      | nil => exact hne rfl
      | cons c name =>
          have htrim := blanks1?_eq_some hblanks
          obtain ⟨rfl, -⟩ := List.cons.inj (show c :: (name ++ more) = '=' :: rest from htrim)
          exact absurd (hname '=' (by simp)) (by decide)
  | cons c w' =>
      have hc : isWord c = true := var.isWord c (by simp [hvar])
      simp [blanks1?, isBlank_of_isWord hc] at hblanks

theorem scan_assignments (s : Schema) {rest : List Char}
    (hrest : ∀ place, scan assignment? 0 place (some '\n') rest = []) (place : Nat)
    (before : Option Char) : scan assignment? 0 place before (s.text ++ rest) = [] := by
  have hclosed (n : Nat) (c : Option Char) (q : List Char) (hq : ∀ c ∈ q, inLiteral c = true)
      (tail : List Char) : scan assignment? 0 n c (q ++ (closer ++ tail)) =
        scan assignment? 0 (n + q.length + 3) (some '\n') tail :=
    scan_quiet_closer worded_assignment? guarded_assignment? ⟨by decide, by decide⟩
      (fun c hc => inLiteral_ne_equals (hq c hc)) n tail
  have htext : s.text ++ rest = ['c', 'o', 'n', 's', 't'] ++ ' ' :: (s.var.chars ++
      ' ' :: '=' :: ' ' :: (newSchema ++ (s.literal ++ (closer ++ (s.registration ++ rest))))) := by
    simp [Schema.text, Schema.binding, Schema.construction]
  have hbinding := assignment?_binding s before (s.literal ++ (closer ++ (s.registration ++ rest)))
  have hkeyword : assignment? before (['c', 'o', 'n', 's', 't'] ++ ' ' :: (s.var.chars ++
      ' ' :: '=' :: ' ' :: (newSchema ++ (s.literal ++ (closer ++ (s.registration ++ rest)))))) =
        none := by
    simpa [Schema.binding] using hbinding
  have hskip (n : Nat) (tail : List Char) : scan assignment? 0 n (some ' ') (newSchema ++ tail) =
      scan assignment? 0 (n + newSchema.length) (some '(') tail := rfl
  have hw := worded_assignment?
  -- Only words are places to read from: the keyword, the variable, and those behind the brackets.
  rw [htext, hw.scan_word place (by simp) (by decide) hkeyword, hw.scan_cons (by decide),
    hw.scan_word _ s.var.nonempty s.var.isWord (assignment?_variable s.var _ _),
    hw.scan_cons (by decide), hw.scan_cons (by decide), hw.scan_cons (by decide), hskip,
    hclosed _ _ _ (inLiteral_literal s)]
  cases hname : s.registered with
  | none => simpa [Schema.registration, hname] using hrest _
  | some name =>
      have hregistration : s.registration ++ rest =
          mongooseModel ++ (announced name s.var ++ (closer ++ rest)) := by
        simp [Schema.registration_eq hname]
      have hcall (n : Nat) (tail : List Char) :
          scan assignment? 0 n (some '\n') (mongooseModel ++ tail) =
            scan assignment? 0 (n + mongooseModel.length) (some '(') tail := rfl
      rw [hregistration, hcall, hclosed _ _ _ (inLiteral_announced name s.var), hrest]

theorem assignments_sourceText (schemas : List Schema) (place : Nat) (before : Option Char) :
    scan assignment? 0 place before (sourceText schemas) = [] := by
  induction schemas generalizing place before with
  | nil => rfl
  | cons s ss ih =>
      rw [sourceText_cons]
      exact scan_assignments s (fun _ => ih _ _) place before

theorem lookup_foldl_record {declared : List (List Char × List Char)} {name : List Char}
    (h : ∀ d ∈ declared, d.1 ≠ name) (index : Index) :
    (declared.foldl record index).lookup (String.ofList name) =
      index.lookup (String.ofList name) := by
  induction declared generalizing index with
  | nil => rfl
  | cons d declared ih =>
      have hne : String.ofList name ≠ String.ofList d.1 := by
        intro heq
        exact h d (by simp) (String.ofList_injective heq).symm
      rw [List.foldl_cons, ih fun e he => h e (List.mem_cons_of_mem _ he)]
      exact Json.lookup_put_of_ne _ _ hne

theorem declared_ne {schemas : List Schema} {name : List Char}
    (h : ∀ s ∈ schemas, s.var.chars ≠ name) : ∀ d ∈ schemas.filterMap Schema.declared, d.1 ≠ name := by
  intro d hd
  obtain ⟨s, hs, hdeclared⟩ := List.mem_filterMap.1 hd
  obtain ⟨w, -, rfl⟩ := Option.map_eq_some_iff.1 hdeclared
  exact h s hs

theorem index_sourceText (schemas : List Schema) :
    index (sourceText schemas) = (schemas.filterMap Schema.declared).foldl record [] := by
  have hassignments : declaredBy assignment? (sourceText schemas) = [] := by
    rw [declaredBy, findAll, assignments_sourceText, List.map_nil]
  have hregistrations : declaredBy registration? (sourceText schemas) =
      schemas.filterMap Schema.declared :=
    registrations_sourceText schemas 0 none
  rw [index, hassignments, hregistrations, List.foldl_nil]

theorem lookup_index {earlier later : List Schema} {s : Schema}
    (hnodup : ((earlier ++ s :: later).map (·.var.chars)).Nodup) :
    (index (sourceText (earlier ++ s :: later))).lookup (String.ofList s.var.chars) =
      s.registered.map fun name => String.ofList name.chars := by
  rw [List.map_append, List.map_cons, List.nodup_append, List.nodup_cons] at hnodup
  obtain ⟨-, ⟨hafter, -⟩, hbefore⟩ := hnodup
  have hearlier : ∀ t ∈ earlier, t.var.chars ≠ s.var.chars := fun t ht =>
    hbefore _ (List.mem_map_of_mem ht) _ (by simp)
  have hlater : ∀ t ∈ later, t.var.chars ≠ s.var.chars := by
    intro t ht heq
    exact hafter (heq ▸ List.mem_map_of_mem ht)
  rw [index_sourceText, List.filterMap_append, List.foldl_append]
  cases hname : s.registered with
  | none =>
      have hdeclared : s.declared = none := by simp [Schema.declared, hname]
      rw [List.filterMap_cons_none hdeclared, lookup_foldl_record (declared_ne hlater),
        lookup_foldl_record (declared_ne hearlier)]
      rfl
  | some name =>
      have hdeclared : s.declared = some (s.var.chars, name.chars) := by
        simp [Schema.declared, hname]
      rw [List.filterMap_cons_some hdeclared, List.foldl_cons,
        lookup_foldl_record (declared_ne hlater)]
      exact Json.lookup_put_self _ _ _

end SchemaDiagram.Written
