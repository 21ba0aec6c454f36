import SchemaDiagram.Proofs.Source.TrailingComments

/-!
Namespaces in front of a type. Of those that a spelling starts with the longest listed one is left
out, and no other. So behind two of them a type is known exactly if the two are listed as one.
-/

namespace SchemaDiagram

open SchemaDiagram.Text

theorem Text.trimRight_of_append {s t : List Char} (h : trimRight (s ++ t) = s ++ t) :
    trimRight t = t := by
  by_cases hnil : trimRight t = []
  · rw [trimRight_append_of_eq_nil hnil] at h
    have hkept := trimRight_prefix s
    have hlength := hkept.length_le
    rw [h, List.length_append] at hlength
    have ht : t = [] := List.length_eq_zero_iff.1 (by omega)
    rw [ht]
    rfl
  · rw [trimRight_append_of_ne_nil hnil] at h
    exact List.append_cancel_left h

theorem Text.dotless {cs : List Char} (h : ∀ c ∈ cs, isWord c = true) : '.' ∉ cs :=
  fun hdot => ne_of_isWord (h '.' hdot) (d := '.') (by decide) rfl

namespace FieldType

def Unqualified (cs : List Char) : Prop :=
  ∀ q ∈ qualifiers, ¬ q.toList <+: cs

theorem longest_first : qualifiers.Pairwise fun p q => ¬ p.toList <+: q.toList := by
  decide

theorem qualifier_nonempty : ∀ q ∈ qualifiers, q.toList ≠ [] := by
  decide

theorem dropQualifier_cases (cs : List Char) :
    (∃ q ∈ qualifiers, q.toList ++ dropQualifier cs = cs ∧
      ∀ p ∈ qualifiers, p.toList <+: cs → p.toList <+: q.toList) ∨
    Unqualified cs ∧ dropQualifier cs = cs := by
  cases hfound : qualifiers.findSome? fun q => q.toList.isPrefixOf? cs with
  | none =>
      refine .inr ⟨?_, by rw [dropQualifier, hfound]; rfl⟩
      rintro q hq ⟨rest, hrest⟩
      have hnone := List.findSome?_eq_none_iff.1 hfound q hq
      rw [isPrefixOf?_eq_some_iff.2 hrest] at hnone
      exact absurd hnone (by simp)
  | some rest =>
      obtain ⟨before, q, behind, hlist, hq, hbefore⟩ := List.findSome?_eq_some_iff.1 hfound
      have hrest : q.toList ++ rest = cs := isPrefixOf?_eq_some_iff.1 hq
      have horder := longest_first
      rw [hlist, List.pairwise_append, List.pairwise_cons] at horder
      refine .inl ⟨q, by simp [hlist], by rw [dropQualifier, hfound]; exact hrest, ?_⟩
      rintro p hp ⟨tail, htail⟩
      rw [hlist, List.mem_append, List.mem_cons] at hp
      rcases hp with hp | rfl | hp
      · have hnone := hbefore p hp
        rw [isPrefixOf?_eq_some_iff.2 htail] at hnone
        exact absurd hnone (by simp)
      · exact List.prefix_refl _
      · exact (List.prefix_or_prefix_of_prefix ⟨tail, htail⟩ ⟨rest, hrest⟩).resolve_right
          (horder.2.1.1 p hp)

theorem qualifier_within : ∀ p ∈ qualifiers, ∀ r ∈ qualifiers, p.toList <+: r.toList →
    r = p ∨ ∃ q ∈ qualifiers, r = p ++ q := by
  decide +kernel

theorem second_alone : ∀ p ∈ qualifiers, ∀ q ∈ qualifiers, p ++ q ∈ qualifiers →
    ∀ q' ∈ qualifiers, q.toList <+: q'.toList → q = q' := by
  decide +kernel

theorem unqualified_dropQualifier_iff (cs : List Char) :
    Unqualified (dropQualifier cs) ↔ ∀ p ∈ qualifiers, ∀ q ∈ qualifiers, (p ++ q).toList <+: cs →
      ∃ r ∈ qualifiers, (p ++ q).toList <+: r.toList ∧ r.toList <+: cs := by
  have hfront (p q : String) : p.toList <+: (p ++ q).toList := by simp
  constructor
  · intro hfree p hp q hq hstacked
    rcases dropQualifier_cases cs with ⟨r, hr, hsplit, hlongest⟩ | ⟨hnone, -⟩
    · have hfits : r.toList <+: cs := ⟨_, hsplit⟩
      have hpr := hlongest p hp ((hfront p q).trans hstacked)
      rcases List.prefix_or_prefix_of_prefix hstacked hfits with hcovered | hbeyond
      · exact ⟨r, hr, hcovered, hfits⟩
      · rcases qualifier_within p hp r hr hpr with rfl | ⟨q', hq', rfl⟩
        · have hnext : r.toList ++ q.toList <+: r.toList ++ dropQualifier cs := by
            rw [hsplit, ← String.toList_append]
            exact hstacked
          exact absurd ((List.prefix_append_right_inj _).1 hnext) (hfree q hq)
        · rw [String.toList_append, String.toList_append, List.prefix_append_right_inj] at hbeyond
          obtain rfl := second_alone p hp q' hq' hr q hq hbeyond
          exact ⟨p ++ q', hr, List.prefix_refl _, hfits⟩
    · exact absurd ((hfront p q).trans hstacked) (hnone p hp)
  · intro hcovered q hq hprefix
    rcases dropQualifier_cases cs with ⟨r, hr, hsplit, hlongest⟩ | ⟨hnone, hsame⟩
    · have hstacked : (r ++ q).toList <+: cs := by
        rw [String.toList_append, ← hsplit]
        exact (List.prefix_append_right_inj _).2 hprefix
      obtain ⟨longer, hlonger, hle, hfits⟩ := hcovered r hr q hq hstacked
      have hlength := (hle.trans (hlongest longer hlonger hfits)).length_le
      have hpositive := List.length_pos_iff.2 (qualifier_nonempty q hq)
      rw [String.toList_append, List.length_append] at hlength
      omega
    · exact hnone q hq (hsame ▸ hprefix)

theorem dropQualifier_suffix (cs : List Char) : dropQualifier cs <:+ cs := by
  rcases dropQualifier_cases cs with ⟨q, -, hsplit, -⟩ | ⟨-, hsame⟩
  · exact ⟨q.toList, hsplit⟩
  · exact ⟨[], hsame⟩

theorem trimRight_normalize (raw : List Char) : trimRight (normalize raw) = normalize raw := by
  obtain ⟨front, hsplit⟩ := dropQualifier_suffix (trim raw)
  have hright : trimRight (trim raw) = trim raw := trimRight_trimRight (trimLeft raw)
  rw [← hsplit] at hright
  exact trimRight_of_append hright

theorem normalize_normalize_iff (raw : List Char) :
    normalize (normalize raw) = normalize raw ↔
      Unqualified (normalize raw) ∧ trimLeft (normalize raw) = normalize raw := by
  have htrim : trim (normalize raw) = trimLeft (normalize raw) := by
    have hswap := dropWhile_trimRight isBlank (normalize raw)
    rw [trimRight_normalize] at hswap
    exact hswap.symm
  constructor
  · intro h
    have hleft : trimLeft (normalize raw) <:+ normalize raw := List.dropWhile_suffix isBlank
    have hback : normalize raw <:+ trimLeft (normalize raw) := by
      have hdrop := dropQualifier_suffix (trim (normalize raw))
      rw [← normalize, h, htrim] at hdrop
      exact hdrop
    have hsame : trimLeft (normalize raw) = normalize raw :=
      hleft.eq_of_length_le hback.length_le
    rw [normalize, htrim, hsame] at h
    refine ⟨?_, hsame⟩
    rcases dropQualifier_cases (normalize raw) with ⟨q, hq, hsplit, -⟩ | ⟨hfree, -⟩
    · rw [h] at hsplit
      exact absurd (List.append_left_eq_self.1 hsplit) (qualifier_nonempty q hq)
    · exact hfree
  · rintro ⟨hfree, hsame⟩
    rw [normalize, htrim, hsame]
    rcases dropQualifier_cases (normalize raw) with ⟨q, hq, hsplit, -⟩ | ⟨-, hkept⟩
    · exact absurd ⟨_, hsplit⟩ (hfree q hq)
    · exact hkept

theorem lookup?_trim (cs : List Char) : lookup? (trim cs) = lookup? cs := by
  rw [lookup?, lookup?, normalize, normalize, trim_trim]

theorem lookup?_eq_some_iff {cs : List Char} {type : FieldType} :
    lookup? cs = some type ↔
      ∃ q ∈ "" :: qualifiers, trim cs = q.toList ++ type.name.toList := by
  constructor
  · intro h
    obtain ⟨q, hq, hsplit⟩ := Written.exists_eq_qualifier_append (trim cs)
    have hfound : all.find? (·.name.toList == dropQualifier (trim cs)) = some type := h
    have hname := List.find?_some hfound
    exact ⟨q, hq, eq_of_beq hname ▸ hsplit⟩
  · rintro ⟨q, hq, hsplit⟩
    rw [← lookup?_trim, hsplit]
    exact Written.lookup?_qualified q hq type (mem_all type)

def DotEnded (cs : List Char) : Prop :=
  ∀ c ∈ cs.getLast?, c = '.'

theorem dotEnded_qualifier : ∀ q ∈ "" :: qualifiers, DotEnded q.toList := by
  simp [DotEnded, qualifiers]

theorem dotless_name (type : FieldType) : '.' ∉ type.name.toList :=
  dotless (Written.isWord_typeName type)

theorem DotEnded.eq_nil {s t : List Char} (h : DotEnded (s ++ t)) (ht : '.' ∉ t) : t = [] := by
  rcases List.eq_nil_or_concat t with hnil | ⟨init, c, rfl⟩
  · exact hnil
  · rw [List.concat_eq_append, ← List.append_assoc] at h
    have hc : c = '.' := h c List.getLast?_concat
    exact absurd (by simp [hc]) ht

theorem DotEnded.append {s t : List Char} (hs : DotEnded s) (ht : DotEnded t) :
    DotEnded (s ++ t) := by
  intro c hc
  rcases List.eq_nil_or_concat t with rfl | ⟨init, d, rfl⟩
  · rw [List.append_nil] at hc
    exact hs c hc
  · rw [List.concat_eq_append, ← List.append_assoc, List.getLast?_concat] at hc
    exact ht c (by rw [List.concat_eq_append, List.getLast?_concat]; exact hc)

theorem DotEnded.append_inj {s s' t t' : List Char} (hs : DotEnded s) (hs' : DotEnded s')
    (ht : '.' ∉ t) (ht' : '.' ∉ t') (h : s ++ t = s' ++ t') : s = s' ∧ t = t' := by
  rcases List.append_eq_append_iff.1 h with ⟨gap, rfl, rfl⟩ | ⟨gap, rfl, rfl⟩
  · obtain rfl := hs'.eq_nil fun hdot => ht (List.mem_append_left _ hdot)
    exact ⟨(List.append_nil s).symm, rfl⟩
  · obtain rfl := hs.eq_nil fun hdot => ht' (List.mem_append_left _ hdot)
    exact ⟨List.append_nil s', rfl⟩

section

variable {p : String} (hp : p ∈ qualifiers) {s : List Char}

include hp in
theorem trim_qualified (hs : trimLeft s = s) : trim (p.toList ++ s) = p.toList ++ trim s := by
  have htrimmed : Trimmed p.toList := trimmed_of_not_blank fun c hc =>
    Written.isBlank_of_inDotted (Written.inDotted_qualifier p (List.mem_cons_of_mem _ hp) c hc)
  have hne := qualifier_nonempty p hp
  rw [trim, htrimmed.trimLeft_append hne, trim, hs]
  by_cases hnil : trimRight s = []
  · rw [trimRight_append_of_eq_nil hnil, hnil, List.append_nil]
    simpa using htrimmed.trimRight_append hne []
  · exact trimRight_append_of_ne_nil hnil p.toList

include hp in
theorem lookup?_append_iff (hs : trimLeft s = s) {type : FieldType} :
    lookup? (p.toList ++ s) = some type ↔ trim s = type.name.toList ∨
      ∃ q ∈ qualifiers, p ++ q ∈ qualifiers ∧ trim s = q.toList ++ type.name.toList := by
  have hp' : p ∈ "" :: qualifiers := List.mem_cons_of_mem _ hp
  rw [lookup?_eq_some_iff, trim_qualified hp hs]
  constructor
  · rintro ⟨r, hr, hsplit⟩
    rcases List.append_eq_append_iff.1 hsplit with ⟨gap, hgap, hrest⟩ | ⟨gap, hgap, hname⟩
    · rcases List.mem_cons.1 hr with rfl | hr
      · exact absurd (List.append_eq_nil_iff.1 hgap.symm).1 (qualifier_nonempty p hp)
      · rcases qualifier_within p hp r hr ⟨gap, hgap.symm⟩ with rfl | ⟨q, hq, rfl⟩
        · obtain rfl := List.self_eq_append_right.1 hgap
          exact .inl hrest
        · rw [String.toList_append] at hgap
          exact .inr ⟨q, hq, hr, List.append_cancel_left hgap ▸ hrest⟩
    · -- the rest of a qualifier ends with a dot, so no name starts with it
      have hdots := dotEnded_qualifier p hp'
      rw [hgap] at hdots
      obtain rfl := hdots.eq_nil fun hdot => dotless_name type (hname ▸ List.mem_append_left _ hdot)
      exact .inl hname.symm
  · rintro (hname | ⟨q, -, hpq, hname⟩)
    · exact ⟨p, hp', by rw [hname]⟩
    · exact ⟨p ++ q, List.mem_cons_of_mem _ hpq, by simp [hname]⟩

include hp in
theorem lookup?_of_append (hs : trimLeft s = s) {type : FieldType}
    (h : lookup? (p.toList ++ s) = some type) : lookup? s = some type := by
  rw [lookup?_eq_some_iff]
  rcases (lookup?_append_iff hp hs).1 h with hname | ⟨q, hq, -, hname⟩
  · exact ⟨"", List.mem_cons_self, hname⟩
  · exact ⟨q, List.mem_cons_of_mem _ hq, hname⟩

include hp in
theorem coerce_append_iff (hs : trimLeft s = s) :
    coerce (p.toList ++ s) = coerce s ↔ ∀ q ∈ qualifiers, ∀ type : FieldType,
      trim s = q.toList ++ type.name.toList → type = .mixed ∨ p ++ q ∈ qualifiers := by
  constructor
  · intro h q hq type hname
    have hq' : q ∈ "" :: qualifiers := List.mem_cons_of_mem _ hq
    have hknown : lookup? s = some type := lookup?_eq_some_iff.2 ⟨q, hq', hname⟩
    cases hlookup : lookup? (p.toList ++ s) with
    | none =>
        rw [coerce, coerce, hlookup, hknown] at h
        exact .inl h.symm
    | some found =>
        obtain rfl : type = found :=
          Option.some.inj (hknown.symm.trans (lookup?_of_append hp hs hlookup))
        rcases (lookup?_append_iff hp hs).1 hlookup with hbare | ⟨q', hq', hlisted, hname'⟩
        · have hnone := List.append_cancel_right ((List.nil_append _).trans (hbare.symm.trans hname))
          exact absurd hnone.symm (qualifier_nonempty q hq)
        · have hsame := List.append_cancel_right (hname'.symm.trans hname)
          exact .inr (String.toList_inj.1 hsame ▸ hlisted)
  · intro h
    cases hlookup : lookup? (p.toList ++ s) with
    | some found => rw [coerce, coerce, hlookup, lookup?_of_append hp hs hlookup]
    | none =>
        have hunknown : (lookup? s).getD .mixed = .mixed := by
          cases hknown : lookup? s with
          | none => rfl
          | some type =>
              obtain ⟨q, hq, hname⟩ := lookup?_eq_some_iff.1 hknown
              have hfails : lookup? (p.toList ++ s) ≠ some type := by simp [hlookup]
              rcases List.mem_cons.1 hq with rfl | hq
              · exact absurd ((lookup?_append_iff hp hs).2 (.inl hname)) hfails
              · rcases h q hq type hname with hmixed | hlisted
                · exact hmixed
                · have hfound := (lookup?_append_iff hp hs).2 (.inr ⟨q, hq, hlisted, hname⟩)
                  exact absurd hfound hfails
        rw [coerce, coerce, hlookup, hunknown]
        rfl

end

end FieldType

namespace Written

open FieldType (qualifiers coerce DotEnded)

def pathText (ws : List Word) : List Char :=
  joinWith ['.'] (ws.map Word.chars)

def namespaceText (front : List Word) : List Char :=
  front.flatMap fun w => w.chars ++ ['.']

theorem pathText_cons (first : Word) (others : List Word) :
    pathText (first :: others) = first.chars ++ others.flatMap dotted := by
  rw [pathText, List.map_cons, joinWith_cons_eq, List.flatMap_map]
  rfl

theorem pathText_concat (front : List Word) (last : Word) :
    pathText (front ++ [last]) = namespaceText front ++ last.chars := by
  induction front with
  | nil => rfl
  | cons w front ih =>
      have hne : (front ++ [last]).map Word.chars ≠ [] := by simp
      rw [List.cons_append, pathText, List.map_cons, joinWith_cons _ _ hne, ← pathText, ih]
      simp [namespaceText]

theorem inDotted_pathText (ws : List Word) : ∀ c ∈ pathText ws, inDotted c = true := by
  refine forall_mem_joinWith (by decide) ?_
  intro piece hpiece c hc
  obtain ⟨w, -, rfl⟩ := List.mem_map.1 hpiece
  simp [inDotted, w.isWord c hc]

theorem trimmed_pathText (ws : List Word) : Trimmed (pathText ws) :=
  trimmed_of_not_blank fun c hc => isBlank_of_inDotted (inDotted_pathText ws c hc)

theorem dotEnded_namespaceText (front : List Word) : DotEnded (namespaceText front) := by
  induction front with
  | nil => exact fun c hc => absurd hc (by simp [namespaceText])
  | cons w front ih =>
      have hw : DotEnded (w.chars ++ ['.']) := by simp [DotEnded]
      exact hw.append ih

theorem count_namespaceText (front : List Word) :
    (namespaceText front).count '.' = front.length := by
  induction front with
  | nil => rfl
  | cons w front ih =>
      have hw : w.chars.count '.' = 0 := List.count_eq_zero_of_not_mem (dotless w.isWord)
      have hsplit : namespaceText (w :: front) = w.chars ++ ['.'] ++ namespaceText front := rfl
      rw [hsplit, List.count_append, List.count_append, hw, ih]
      simp [Nat.add_comm]

def wordOf (text : String) (h : text.toList ≠ [] ∧ ∀ c ∈ text.toList, isWord c = true) : Word :=
  ⟨text.toList, h.1, h.2⟩

def mongooseWord : Word :=
  wordOf "mongoose" (by decide)

def schemaWord : Word :=
  wordOf "Schema" (by decide)

def typesWord : Word :=
  wordOf "Types" (by decide)

def namespaceWords : List (List Word) :=
  [[], [mongooseWord, schemaWord, typesWord], [mongooseWord, typesWord], [mongooseWord],
   [schemaWord, typesWord], [schemaWord], [typesWord]]

theorem qualifiers_eq : ("" :: qualifiers).map String.toList = namespaceWords.map namespaceText := by
  decide

theorem namespaceWord_ne_name : ∀ front ∈ namespaceWords, ∀ w ∈ front, ∀ type : FieldType,
    w.chars ≠ type.name.toList := by
  have hall : ∀ front ∈ namespaceWords, ∀ w ∈ front, ∀ type ∈ FieldType.all,
      w.chars ≠ type.name.toList := by decide
  exact fun front hfront w hw type => hall front hfront w hw type (FieldType.mem_all type)

theorem exists_words {q : String} (hq : q ∈ "" :: qualifiers) :
    ∃ front ∈ namespaceWords, namespaceText front = q.toList := by
  have hmem : q.toList ∈ namespaceWords.map namespaceText := qualifiers_eq ▸ List.mem_map_of_mem hq
  exact List.mem_map.1 hmem

theorem find?_type_words (first : Word) (others : List Word) :
    find? Attribute.type? (typeObject (pathText (first :: others))) =
      some (pathText (first :: others.take 3)) := by
  have hw : Worded Attribute.type? := worded_labelled (by decide) (by decide)
  obtain ⟨c, more, hc, htext⟩ : ∃ c more, isWord c = true ∧
      pathText (first :: others) = c :: more := by
    have hne := first.nonempty
    have hword := first.isWord
    rw [pathText_cons]
    cases hfirst : first.chars with
    | nil => exact absurd hfirst hne
    | cons c cs => exact ⟨c, cs ++ others.flatMap dotted, hword c (by simp [hfirst]), rfl⟩
  have hbracket : literal? "[" (pathText (first :: others) ++ [' ', '}']) = none := by
    refine Option.eq_none_iff_forall_ne_some.2 fun left h => ?_
    rw [literal?_eq_some_iff, htext] at h
    exact ne_of_isWord hc (d := '[') (by decide) (List.cons.inj h).1.symm
  have hread : Attribute.path? (trimLeft (dropLiteral "[" (pathText (first :: others) ++
      [' ', '}']))) = some (pathText (first :: others.take 3),
        (others.drop 3).flatMap dotted ++ [' ', '}']) := by
    rw [dropLiteral_of_none hbracket, (trimmed_pathText _).trimLeft_append (by simp [htext]),
      pathText_cons, pathText_cons, path?_words first others rfl (by simp)]
  have hentry : typeObject (pathText (first :: others)) =
      '{' :: ' ' :: ((Entry.mk "type" (pathText (first :: others))).text ++ [' ', '}']) :=
    typeObject_eq _
  rw [hentry, find?, hw.findFrom?_cons (by decide), hw.findFrom?_cons (by decide)]
  exact findFrom?_lastEntry (by simp [htext]) (trimmed_pathText _) hread

theorem type_typeObject_words {ws : List Word} (hne : ws ≠ []) :
    (Field.ofValue (typeObject (pathText ws))).type = coerce (pathText (ws.take 4)) := by
  cases ws with
  | nil => exact absurd rfl hne
  | cons first others =>
      have hslash : ∀ c ∈ pathText (first :: others), c ≠ '/' := fun c hc =>
        ne_of_inDotted (inDotted_pathText _ c hc) (by decide)
      rw [ofValue_typeObject hslash, Field.ofObject, find?_type_words]
      rfl

theorem words_of_lookup? {front : List Word} {last : Word} {type : FieldType}
    (h : FieldType.lookup? (pathText (front ++ [last])) = some type) :
    last.chars = type.name.toList ∧ front.length ≤ 3 := by
  have hshort : ∀ q ∈ "" :: qualifiers, q.toList.count '.' ≤ 3 := by decide
  obtain ⟨q, hq, hsplit⟩ := FieldType.lookup?_eq_some_iff.1 h
  rw [(trimmed_pathText _).trim, pathText_concat] at hsplit
  obtain ⟨hfront, hname⟩ := (dotEnded_namespaceText front).append_inj
    (FieldType.dotEnded_qualifier q hq) (dotless last.isWord) (FieldType.dotless_name type) hsplit
  refine ⟨hname, ?_⟩
  rw [← count_namespaceText, hfront]
  exact hshort q hq

section

variable {p : String} (hp : p ∈ "" :: qualifiers) (s : Spelling)

include hp in
theorem exists_words_qualified : ∃ front : List Word,
    (∀ w ∈ front, ∀ type : FieldType, w.chars ≠ type.name.toList) ∧
      p.toList ++ s.chars = pathText (front ++ [typeWord s.type]) := by
  obtain ⟨ps, hps, hptext⟩ := exists_words hp
  obtain ⟨qs, hqs, hqtext⟩ := exists_words s.listed
  refine ⟨ps ++ qs, ?_, ?_⟩
  · intro w hw
    rcases List.mem_append.1 hw with hw | hw
    · exact namespaceWord_ne_name ps hps w hw
    · exact namespaceWord_ne_name qs hqs w hw
  · rw [pathText_concat, namespaceText, List.flatMap_append, ← namespaceText, ← namespaceText,
      hptext, hqtext, List.append_assoc]
    rfl

include hp in
theorem type_ofValue_qualified :
    (Field.ofValue (p.toList ++ s.chars)).type = coerce (p.toList ++ s.chars) := by
  have hdotted : ∀ c ∈ p.toList ++ s.chars, inDotted c = true := by
    intro c hc
    rcases List.mem_append.1 hc with hc | hc
    · exact inDotted_qualifier p hp c hc
    · exact s.inDotted_chars c hc
  rw [ofValue_dotted hdotted]

include hp in
theorem type_typeObject_qualified :
    (Field.ofValue (typeObject (p.toList ++ s.chars))).type = coerce (p.toList ++ s.chars) := by
  obtain ⟨front, hnames, htext⟩ := exists_words_qualified hp s
  rw [htext, type_typeObject_words (by simp)]
  by_cases hshort : front.length ≤ 3
  · rw [List.take_of_length_le (by simp; omega)]
  · -- the four words that are read are all of namespaces, and no known type has so many in front
    have hread : (front ++ [typeWord s.type]).take 4 = front.take 4 :=
      List.take_append_of_le_length (by omega)
    obtain ⟨init, last, hlast⟩ : ∃ init last, front.take 4 = init ++ [last] := by
      have hne : front.take 4 ≠ [] := List.ne_nil_of_length_pos (by rw [List.length_take]; omega)
      exact ⟨_, _, (List.dropLast_concat_getLast hne).symm⟩
    have hmem : last ∈ front := List.mem_of_mem_take (i := 4) (by simp [hlast])
    have hpart : FieldType.lookup? (pathText (init ++ [last])) = none :=
      Option.eq_none_iff_forall_ne_some.2 fun type h =>
        hnames last hmem type (words_of_lookup? h).1
    have hwhole : FieldType.lookup? (pathText (front ++ [typeWord s.type])) = none :=
      Option.eq_none_iff_forall_ne_some.2 fun type h => hshort (words_of_lookup? h).2
    rw [hread, hlast, coerce, coerce, hpart, hwhole]

end

def Spelling.Joins (s : Spelling) (p : String) : Prop :=
  s.type = .mixed ∨ s.qualifier = "" ∨ p ++ s.qualifier ∈ qualifiers

theorem Spelling.coerce_append_iff (s : Spelling) {p : String} (hp : p ∈ qualifiers) :
    coerce (p.toList ++ s.chars) = coerce s.chars ↔ s.Joins p := by
  have hleft : trimLeft s.chars = s.chars := by
    obtain ⟨c, more, hc, hchars⟩ := s.exists_chars_eq
    rw [hchars, trimLeft_cons (isBlank_of_inDotted hc)]
  rw [FieldType.coerce_append_iff hp hleft, s.trimmed.trim]
  constructor
  · intro h
    rcases List.mem_cons.1 s.listed with hplain | hlisted
    · exact .inr (.inl hplain)
    · rcases h s.qualifier hlisted s.type rfl with hmixed | hjoined
      · exact .inl hmixed
      · exact .inr (.inr hjoined)
  · intro h q hq type hname
    have hq' : q ∈ "" :: qualifiers := List.mem_cons_of_mem _ hq
    have hknown : FieldType.lookup? s.chars = some type :=
      FieldType.lookup?_eq_some_iff.2 ⟨q, hq', by rw [s.trimmed.trim, hname]⟩
    obtain rfl : s.type = type := Option.some.inj (s.lookup?_chars.symm.trans hknown)
    obtain rfl : s.qualifier = q := String.toList_inj.1 (List.append_cancel_right hname)
    rcases h with hmixed | hplain | hjoined
    · exact .inl hmixed
    · exact absurd (congrArg String.toList hplain) (FieldType.qualifier_nonempty _ hq)
    · exact .inr hjoined

theorem namespaces_iff (raw : List Char) :
    (FieldType.Unqualified (FieldType.normalize raw) ↔
      ∀ p ∈ qualifiers, ∀ q ∈ qualifiers, (p ++ q).toList <+: trim raw →
        ∃ r ∈ qualifiers, (p ++ q).toList <+: r.toList ∧ r.toList <+: trim raw) ∧
    (FieldType.normalize (FieldType.normalize raw) = FieldType.normalize raw ↔
      FieldType.Unqualified (FieldType.normalize raw) ∧
        trimLeft (FieldType.normalize raw) = FieldType.normalize raw) ∧
    ∀ p ∈ qualifiers,
      (trimLeft raw = raw →
        (coerce (p.toList ++ raw) = coerce raw ↔ ∀ q ∈ qualifiers, ∀ type : FieldType,
          trim raw = q.toList ++ type.name.toList → type = .mixed ∨ p ++ q ∈ qualifiers)) ∧
      ∀ s : Spelling,
        ((Field.ofValue (p.toList ++ s.chars)).type = (Field.ofValue s.chars).type ↔ s.Joins p) ∧
        ((Field.ofValue (typeObject (p.toList ++ s.chars))).type =
          (Field.ofValue (typeObject s.chars)).type ↔ s.Joins p) := by
  refine ⟨FieldType.unqualified_dropQualifier_iff (trim raw), FieldType.normalize_normalize_iff raw,
    fun p hp => ⟨FieldType.coerce_append_iff hp, fun s => ?_⟩⟩
  have hp' : p ∈ "" :: qualifiers := List.mem_cons_of_mem _ hp
  have hbare : (Field.ofValue s.chars).type = coerce s.chars :=
    type_ofValue_qualified List.mem_cons_self s
  have hattribute : (Field.ofValue (typeObject s.chars)).type = coerce s.chars :=
    type_typeObject_qualified List.mem_cons_self s
  rw [type_ofValue_qualified hp' s, type_typeObject_qualified hp' s, hbare, hattribute,
    s.coerce_append_iff hp]
  exact ⟨Iff.rfl, Iff.rfl⟩

def typesObjectId : Spelling where
  qualifier := "Types."
  type := .objectId
  listed := by simp [FieldType.qualifiers]

theorem typesObjectId_qualified :
    (Field.ofValue ("mongoose.".toList ++ typesObjectId.chars)).type =
      (Field.ofValue typesObjectId.chars).type := by
  have hlisted : "mongoose." ++ typesObjectId.qualifier ∈ qualifiers := by decide
  have hread := ((namespaces_iff typesObjectId.chars).2.2 "mongoose." (by decide)).2 typesObjectId
  exact hread.1.2 (.inr (.inr hlisted))

theorem schemaObjectId_unknown :
    FieldType.normalize "mongoose.Schema.ObjectId".toList = "Schema.ObjectId".toList ∧
    "Schema." ∈ qualifiers ∧ "Schema.".toList <+: "Schema.ObjectId".toList ∧
    coerce "mongoose.Schema.ObjectId".toList = .mixed ∧
    coerce "Schema.ObjectId".toList = .objectId ∧
    (Field.ofValue (typeObject "mongoose.Schema.ObjectId".toList)).type = .mixed ∧
    (Field.ofValue (typeObject "Schema.ObjectId".toList)).type = .objectId := by
  decide +kernel

end Written

end SchemaDiagram
