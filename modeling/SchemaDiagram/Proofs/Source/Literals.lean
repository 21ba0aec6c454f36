import SchemaDiagram.Proofs.Source.Values

namespace SchemaDiagram

open SchemaDiagram.Text

theorem foldr_consPiece (s piece : List Char) (pieces : List (List Char)) :
    s.foldr consPiece (piece :: pieces) = (s ++ piece) :: pieces := by
  induction s with
  | nil => rfl
  | cons c s ih => rw [List.foldr_cons, ih]; rfl

def Solid (low : Int) (s : List Char) : Prop :=
  ∀ depth, low ≤ depth → ∀ rest,
    piecesFrom depth (s ++ rest) = s.foldr consPiece (piecesFrom depth rest)

namespace Solid

variable {low : Int} {s t : List Char}

theorem nil : Solid low [] :=
  fun _ _ _ => rfl

theorem append (hs : Solid low s) (ht : Solid low t) : Solid low (s ++ t) := by
  intro depth hdepth rest
  rw [List.append_assoc, hs depth hdepth, ht depth hdepth, List.foldr_append]

theorem mono {high : Int} (h : Solid low s) (hle : low ≤ high) : Solid high s :=
  fun depth hdepth rest => h depth (Int.le_trans hle hdepth) rest

theorem cons {c : Char} (hopen : isOpener c = false) (hclose : isCloser c = false)
    (hcomma : c ≠ ',' ∨ 1 ≤ low) (hs : Solid low s) : Solid low (c :: s) := by
  intro depth hdepth rest
  have hstay : depthAfter depth c = depth := by simp [depthAfter, hopen, hclose]
  have hsplit : ¬(decide (c = ',') && decide (depth = 0)) = true := by
    simp only [Bool.and_eq_true, decide_eq_true_eq]
    rintro ⟨rfl, rfl⟩
    rcases hcomma with h | h
    · exact h rfl
    · omega
  rw [List.cons_append, piecesFrom, if_neg hsplit, hstay, hs depth hdepth]
  rfl

theorem brackets {o c : Char} (hopen : isOpener o = true) (hclose : isCloser c = true)
    (hs : Solid (low + 1) s) : Solid low (o :: s ++ [c]) := by
  intro depth hdepth rest
  have hcloser : isOpener c = false := by
    simp only [isCloser, Bool.or_eq_true, decide_eq_true_eq] at hclose
    rcases hclose with (rfl | rfl) | rfl
    · rfl
    · rfl
    · rfl
  have hdeeper : depthAfter depth o = depth + 1 := by simp [depthAfter, hopen]
  have hback : depthAfter (depth + 1) c = depth := by
    simp only [depthAfter, hcloser, hclose, Bool.false_eq_true, if_false, if_true]
    omega
  have hcomma {d : Char} (hd : isOpener d = true ∨ isCloser d = true) (depth : Int) :
      ¬(decide (d = ',') && decide (depth = 0)) = true := by
    simp only [Bool.and_eq_true, decide_eq_true_eq]
    rintro ⟨rfl, -⟩
    rcases hd with h | h
    · exact absurd h (by decide)
    · exact absurd h (by decide)
  rw [List.append_assoc, List.cons_append, piecesFrom, if_neg (hcomma (.inl hopen) depth), hdeeper,
    hs (depth + 1) (by omega), List.singleton_append, piecesFrom,
    if_neg (hcomma (.inr hclose) _), hback, List.cons_append, List.foldr_cons, List.foldr_append]
  rfl

theorem of_forall (h : ∀ c ∈ s, isOpener c = false ∧ isCloser c = false ∧ (c ≠ ',' ∨ 1 ≤ low)) :
    Solid low s := by
  induction s with
  | nil => exact nil
  | cons c s ih =>
      obtain ⟨hopen, hclose, hcomma⟩ := h c (by simp)
      exact cons hopen hclose hcomma (ih fun d hd => h d (List.mem_cons_of_mem _ hd))

theorem word (h : ∀ c ∈ s, isWord c = true) : Solid low s := by
  refine of_forall fun c hc => ?_
  have hne {d : Char} (hd : isWord d = false) : c ≠ d := ne_of_isWord (h c hc) hd
  refine ⟨?_, ?_, .inl (hne (by decide))⟩
  · simp [isOpener, hne (d := '{') (by decide), hne (d := '[') (by decide),
      hne (d := '(') (by decide)]
  · simp [isCloser, hne (d := '}') (by decide), hne (d := ']') (by decide),
      hne (d := ')') (by decide)]

theorem joinWith {sep : List Char} {pieces : List (List Char)} (hsep : Solid low sep)
    (hpieces : ∀ piece ∈ pieces, Solid low piece) : Solid low (joinWith sep pieces) :=
  joinWith_of_append nil (fun _ _ => append) hsep hpieces

theorem pieces_eq (h : Solid 0 s) : piecesFrom 0 s = [s] := by
  have hpieces := h 0 (by decide) []
  rw [List.append_nil, piecesFrom, foldr_consPiece, List.append_nil] at hpieces
  exact hpieces

theorem pieces_append_comma (h : Solid 0 s) (rest : List Char) :
    piecesFrom 0 (s ++ ',' :: rest) = s :: piecesFrom 0 rest := by
  have hcomma : piecesFrom 0 (',' :: rest) = [] :: piecesFrom 0 rest := rfl
  rw [h 0 (by decide), hcomma, foldr_consPiece, List.append_nil]

end Solid

namespace Written

theorem solid_separator : Solid 1 separator :=
  .of_forall (by decide)

theorem solid_quotedText (w : Word) : Solid 0 (quotedText w) := by
  have hchars : Solid 0 (w.chars ++ ['\'']) :=
    (Solid.word w.isWord).append (.of_forall (by decide))
  exact .cons (by decide) (by decide) (.inl (by decide)) hchars

theorem solid_entryBody (t : Trait) : Solid 1 t.entry.body := by
  cases t with
  | required => exact .word (by decide)
  | ref target => exact (solid_quotedText target).mono (by decide)
  | default value => exact (solid_quotedText value).mono (by decide)
  | enum first others =>
      refine .brackets (by decide) (by decide) (.joinWith (solid_separator.mono (by decide)) ?_)
      intro piece hpiece
      obtain ⟨w, -, rfl⟩ := List.mem_map.1 hpiece
      exact (solid_quotedText w).mono (by decide)

theorem solid_spoken {low : Int} {name body : List Char} (hname : ∀ c ∈ name, isWord c = true)
    (hbody : Solid low body) : Solid low (name ++ ':' :: ' ' :: body) :=
  (Solid.word hname).append
    (.cons (by decide) (by decide) (.inl (by decide))
      (.cons (by decide) (by decide) (.inl (by decide)) hbody))

theorem solid_objectText {pieces : List (List Char)} (h : ∀ piece ∈ pieces, Solid 1 piece) :
    Solid 0 (objectText pieces) := by
  have htext : objectText pieces = '{' :: (' ' :: joinWith separator pieces ++ [' ']) ++ ['}'] := by
    simp [objectText]
  rw [htext]
  refine .brackets (by decide) (by decide) (.append ?_ (.of_forall (by decide)))
  exact .cons (by decide) (by decide) (.inr (by decide)) (.joinWith solid_separator h)

theorem solid_value (v : Value) : Solid 0 v.text := by
  cases v with
  | plain type => exact .word (isWord_typeName type)
  | array type => exact .brackets (by decide) (by decide) (.word (isWord_typeName type))
  | object type traits =>
      refine solid_objectText fun piece hpiece => ?_
      obtain ⟨a, ha, rfl⟩ := List.mem_map.1 hpiece
      refine solid_spoken (plain_entries type traits a ha).label_isWord ?_
      simp only [Value.entries, List.mem_cons, List.mem_map] at ha
      rcases ha with rfl | ⟨t, -, rfl⟩
      · exact .word (isWord_typeName type)
      · exact solid_entryBody t

theorem solid_member (m : Member) : Solid 0 m.text :=
  solid_spoken m.name.isWord (solid_value m.value)

theorem trimmed_member (m : Member) : Trimmed m.text := by
  have htext : m.text = m.name.chars ++ [':', ' '] ++ m.value.text := by simp [Member.text]
  rw [htext]
  exact m.name.trimmed.around m.value.trimmed_text m.name.nonempty m.value.nonempty_text _

theorem nonempty_member (m : Member) : m.text ≠ [] := by
  simp [Member.text]

end Written

theorem dropEmptyLast_of_forall {pieces : List (List Char)} (h : ∀ p ∈ pieces, p ≠ []) :
    dropEmptyLast pieces = pieces := by
  induction pieces with
  | nil => rfl
  | cons piece pieces ih =>
      cases pieces with
      | nil => simp [dropEmptyLast, h piece (by simp)]
      | cons next pieces =>
          rw [dropEmptyLast, ih fun p hp => h p (List.mem_cons_of_mem _ hp)]
          simp

structure Neat (p : List Char) : Prop where
  solid : Solid 0 p
  trimmed : Trimmed p
  nonempty : p ≠ []

theorem solid_space {s : List Char} (h : Solid 0 s) : Solid 0 (' ' :: s) :=
  .cons (by decide) (by decide) (.inl (by decide)) h

theorem trim_space (s : List Char) : trim (' ' :: s) = trim s := by
  rw [trim, trimLeft_blank (by decide), ← trim]

theorem Neat.trim_spaces {p : List Char} (h : Neat p) : trim (' ' :: p ++ [' ']) = p := by
  rw [List.cons_append, trim_space, trim, h.trimmed.trimLeft_append h.nonempty,
    trimRight_blank (by decide)]
  simpa using h.trimmed.trimRight_append h.nonempty []

theorem trim_piecesFrom_joined {piece : List Char} {others : List (List Char)}
    (hpiece : Neat piece) (hothers : ∀ p ∈ others, Neat p) :
    (piecesFrom 0 (' ' :: (piece ++ others.flatMap (Written.separator ++ ·)) ++ [' '])).map trim =
      piece :: others := by
  induction others generalizing piece with
  | nil =>
      have hwhole : Solid 0 (' ' :: piece ++ [' ']) :=
        (solid_space hpiece.solid).append (.of_forall (by decide))
      simp only [List.flatMap_nil, List.append_nil, hwhole.pieces_eq, List.map_cons,
        hpiece.trim_spaces, List.map_nil]
  | cons next others ih =>
      have hrest := ih (hothers next (by simp)) fun p hp => hothers p (List.mem_cons_of_mem _ hp)
      have htext : ' ' :: (piece ++ (next :: others).flatMap (Written.separator ++ ·)) ++ [' '] =
          ' ' :: piece ++ ',' :: (' ' :: (next ++ others.flatMap (Written.separator ++ ·)) ++
            [' ']) := by
        simp [Written.separator]
      rw [htext, (solid_space hpiece.solid).pieces_append_comma, List.map_cons, hrest, trim_space,
        hpiece.trimmed.trim]

theorem splitTopLevel_joined {pieces : List (List Char)} (hne : pieces ≠ [])
    (hneat : ∀ p ∈ pieces, Neat p) :
    splitTopLevel (' ' :: joinWith Written.separator pieces ++ [' ']) = pieces := by
  cases pieces with
  | nil => exact absurd rfl hne
  | cons piece pieces =>
      rw [splitTopLevel, joinWith_cons_eq, trim_piecesFrom_joined (hneat piece (by simp))
        fun p hp => hneat p (List.mem_cons_of_mem _ hp)]
      exact dropEmptyLast_of_forall fun p hp => (hneat p hp).nonempty

theorem behindComment?_of_ne {c : Char} (h : c ≠ '/') (cs : List Char) :
    behindComment? (c :: cs) = none := by
  unfold behindComment?
  split <;> simp_all

theorem dropLeadingComments_of_ne {c : Char} (hblank : isBlank c = false) (h : c ≠ '/')
    (cs : List Char) : dropLeadingComments (c :: cs) = c :: cs := by
  rw [dropLeadingComments, List.length_cons, dropComments, trimLeft_cons hblank,
    behindComment?_of_ne h]

namespace Written

theorem keyValue?_spoken (w : Word) {value : List Char} (htrimmed : Trimmed value)
    (hne : value ≠ []) : keyValue? (w.chars ++ ':' :: ' ' :: value) = some (w.chars, value) := by
  have hquote : quote? (w.chars ++ ':' :: ' ' :: value) = none := by
    have hnonempty := w.nonempty
    have hplain := w.not_isQuote
    cases hchars : w.chars with
    | nil => exact absurd hchars hnonempty
    | cons c cs => simp [quote?, hplain c (by simp [hchars])]
  have hword : word? (w.chars ++ ':' :: ' ' :: value) = some (w.chars, ':' :: ' ' :: value) :=
    word?_append w.nonempty w.isWord (by rfl)
  have hbehind : quote? (':' :: ' ' :: value) = none := rfl
  have hcolon : literal? ":" (trimLeft (':' :: ' ' :: value)) = some (' ' :: value) := by
    rw [trimLeft_cons (by decide)]
    rfl
  have hvalue : trimLeft (' ' :: value) = value := by
    rw [trimLeft_blank (by decide)]
    simpa using htrimmed.trimLeft_append hne []
  simp [keyValue?, hquote, hword, hbehind, hcolon, hvalue, hne]

theorem ofEntry?_text (m : Member) : Field.ofEntry? m.text = some m.field := by
  have hcomments : dropLeadingComments m.text = m.text := by
    have hnonempty := m.name.nonempty
    have hword := m.name.isWord
    cases hchars : m.name.chars with
    | nil => exact absurd hchars hnonempty
    | cons c cs =>
        have hc := hword c (by simp [hchars])
        rw [Member.text, hchars, List.cons_append]
        exact dropLeadingComments_of_ne (isBlank_of_isWord hc) (ne_of_isWord hc (by decide)) _
  rw [Field.ofEntry?, hcomments, Member.text,
    keyValue?_spoken m.name m.value.trimmed_text m.value.nonempty_text]
  simp only [Option.map_some, ofValue_text]
  rfl

theorem parseFields_members {members : List Member} (hne : members ≠ []) :
    parseFields (' ' :: joinWith separator (members.map Member.text) ++ [' ']) =
      members.map Member.field := by
  have hpieces : splitTopLevel (' ' :: joinWith separator (members.map Member.text) ++ [' ']) =
      members.map Member.text := by
    refine splitTopLevel_joined (by simpa using hne) fun p hp => ?_
    obtain ⟨m, -, rfl⟩ := List.mem_map.1 hp
    exact ⟨solid_member m, trimmed_member m, nonempty_member m⟩
  rw [parseFields, hpieces, List.filterMap_map, ← List.filterMap_eq_map]
  exact congrArg (List.filterMap · members) (funext ofEntry?_text)

end Written

end SchemaDiagram
