import SchemaDiagram.Proofs.Schema.Pieces
import SchemaDiagram.Proofs.Source.Literals

/-!
Fields entry by entry. What stands on one side of a comma that splits a text says nothing about the
fields of the other side, and a comment in front of an entry says nothing about the entry.
-/

namespace SchemaDiagram

open SchemaDiagram.Text

def Inert (cs : List Char) : Prop :=
  ∀ c ∈ cs, c ≠ ',' ∧ isOpener c = false ∧ isCloser c = false

theorem Inert.solid {cs : List Char} (h : Inert cs) : Solid 0 cs := by
  refine .of_forall fun c hc => ?_
  obtain ⟨hcomma, hopen, hclose⟩ := h c hc
  exact ⟨hopen, hclose, .inl hcomma⟩

theorem Inert.balanced {cs : List Char} (h : Inert cs) : Balanced cs := by
  have hopen : cs.countP isOpener = 0 :=
    List.countP_eq_zero.2 fun c hc => by simp [(h c hc).2.1]
  have hclose : cs.countP isCloser = 0 :=
    List.countP_eq_zero.2 fun c hc => by simp [(h c hc).2.2]
  rw [Balanced, hopen, hclose]

theorem inert_of_blank {gap : List Char} (h : ∀ c ∈ gap, isBlank c = true) : Inert gap := by
  intro c hc
  have hne {d : Char} (hd : isBlank d = false) : c ≠ d := by
    rintro rfl
    rw [h c hc] at hd
    exact absurd hd (by simp)
  refine ⟨hne (by decide), ?_, ?_⟩
  · simp [isOpener, hne (d := '{') (by decide), hne (d := '[') (by decide),
      hne (d := '(') (by decide)]
  · simp [isCloser, hne (d := '}') (by decide), hne (d := ']') (by decide),
      hne (d := ')') (by decide)]

theorem consPiece_append (c : Char) {pieces : List (List Char)} (h : pieces ≠ [])
    (others : List (List Char)) : consPiece c (pieces ++ others) = consPiece c pieces ++ others := by
  cases pieces with
  | nil => exact absurd rfl h
  | cons _ _ => rfl

theorem piecesFrom_append_comma {depth : Int} {front : List Char}
    (h : front.foldl depthAfter depth = 0) (back : List Char) :
    piecesFrom depth (front ++ ',' :: back) = piecesFrom depth front ++ piecesFrom 0 back := by
  induction front generalizing depth with
  | nil =>
      obtain rfl : depth = 0 := h
      rfl
  | cons c front ih =>
      rw [List.cons_append, piecesFrom, piecesFrom]
      split
      · next hcut =>
          obtain ⟨rfl, rfl⟩ : c = ',' ∧ depth = 0 := by simpa using hcut
          have hfront : front.foldl depthAfter 0 = 0 := h
          rw [ih hfront, List.cons_append]
      · rw [ih h, consPiece_append c (piecesFrom_ne_nil _ front)]

theorem filterMap_dropEmptyLast {α : Type} {read : List Char → Option α} (h : read [] = none)
    (pieces : List (List Char)) : (dropEmptyLast pieces).filterMap read = pieces.filterMap read := by
  obtain rfl | ⟨front, last, rfl⟩ := List.eq_nil_or_concat pieces
  · rfl
  · rw [List.concat_eq_append, dropEmptyLast_concat, List.filterMap_append, List.filterMap_append]
    by_cases hlast : last = []
    · rw [if_pos hlast, hlast]
      simp [h]
    · rw [if_neg hlast]

theorem ofEntry?_nil : Field.ofEntry? [] = none := rfl

theorem parseFields_eq (cs : List Char) :
    parseFields cs = (piecesFrom 0 cs).filterMap fun piece => Field.ofEntry? (trim piece) := by
  rw [parseFields, splitTopLevel, filterMap_dropEmptyLast ofEntry?_nil, List.filterMap_map]
  rfl

theorem parseFields_comma {front : List Char} (h : Balanced front) (back : List Char) :
    parseFields (front ++ ',' :: back) = parseFields front ++ parseFields back := by
  have hdepth := depth_eq_zero_iff.2 h
  simp only [parseFields_eq, piecesFrom_append_comma hdepth, List.filterMap_append]

theorem parseFields_of_blank {gap : List Char} (h : ∀ c ∈ gap, isBlank c = true) :
    parseFields gap = [] := by
  rw [parseFields_eq, (inert_of_blank h).solid.pieces_eq, List.filterMap_cons, trim_of_blank h]
  rfl

theorem parseFields_entries {front : List Char} (h : Balanced front) (back : List Char) :
    parseFields (front ++ ',' :: back) = parseFields front ++ parseFields back ∧
    parseFields (front ++ [',']) = parseFields front ∧
    (∀ gap, (∀ c ∈ gap, isBlank c = true) →
      parseFields (front ++ ',' :: (gap ++ ',' :: back)) = parseFields (front ++ ',' :: back)) ∧
    ∀ entry, Balanced entry → parseFields entry = [] →
      parseFields (front ++ ',' :: (entry ++ ',' :: back)) =
        parseFields (front ++ ',' :: back) := by
  have hvoid (entry : List Char) (hentry : Balanced entry) (hnone : parseFields entry = []) :
      parseFields (front ++ ',' :: (entry ++ ',' :: back)) =
        parseFields (front ++ ',' :: back) := by
    rw [parseFields_comma h, parseFields_comma hentry, hnone, parseFields_comma h, List.nil_append]
  refine ⟨parseFields_comma h back, ?_, fun gap hgap => ?_, hvoid⟩
  · have hnil : parseFields [] = [] := rfl
    rw [parseFields_comma h, hnil, List.append_nil]
  · exact hvoid gap (inert_of_blank hgap).balanced (parseFields_of_blank hgap)

def tagsEntry : List Char :=
  "// a) and (b\ntags: [String]".toList

def computedEntry : List Char :=
  " [key]: f(x, y)".toList

def dateEntry : List Char :=
  " at: Date".toList

theorem computedEntry_left_out :
    (Balanced tagsEntry ∧ Balanced computedEntry ∧ parseFields computedEntry = []) ∧
    parseFields (tagsEntry ++ ',' :: dateEntry) = parseFields tagsEntry ++ parseFields dateEntry ∧
    parseFields (tagsEntry ++ ',' :: (computedEntry ++ ',' :: dateEntry)) =
      parseFields (tagsEntry ++ ',' :: dateEntry) ∧
    (parseFields (tagsEntry ++ ',' :: dateEntry)).map Field.name = ["tags", "at"] := by
  have htags : Balanced tagsEntry := by decide
  have hcomputed : Balanced computedEntry := by decide
  have hnone : parseFields computedEntry = [] := rfl
  obtain ⟨hsides, -, -, hvoid⟩ := parseFields_entries htags dateEntry
  exact ⟨⟨htags, hcomputed, hnone⟩, hsides, hvoid computedEntry hcomputed hnone, by decide⟩

section

variable {cs rest : List Char}

theorem length_behindBlockComment? (h : behindBlockComment? cs = some rest) :
    rest.length < cs.length := by
  fun_induction behindBlockComment? cs with
  | case1 => simp at h
  | case2 cs =>
      obtain rfl := Option.some.inj h
      simp only [List.length_cons]
      omega
  | case3 c cs _ ih =>
      have hrest := ih h
      rw [List.length_cons]
      omega

theorem length_behindComment? (h : behindComment? cs = some rest) : rest.length < cs.length := by
  fun_cases behindComment? cs with
  | case1 cs =>
      obtain rfl := Option.some.inj h
      have hle := (List.dropWhile_sublist (· != '\n') (l := cs)).length_le
      simp only [List.length_cons]
      omega
  | case2 cs =>
      have hlt := length_behindBlockComment? h
      simp only [List.length_cons]
      omega
  | case3 _ hline hblock =>
      rw [behindComment?.eq_3 _ hline hblock] at h
      exact absurd h (by simp)

theorem length_behind_blanks (h : behindComment? (trimLeft cs) = some rest) :
    rest.length < cs.length := by
  have hle : (trimLeft cs).length ≤ cs.length := (List.dropWhile_sublist isBlank).length_le
  exact Nat.lt_of_lt_of_le (length_behindComment? h) hle

theorem dropComments_congr {fuel fuel' : Nat} (h : cs.length ≤ fuel) (h' : cs.length ≤ fuel') :
    dropComments fuel cs = dropComments fuel' cs := by
  have hnil (fuel : Nat) : dropComments fuel [] = [] := by
    cases fuel <;> rfl
  induction fuel generalizing fuel' cs with
  | zero =>
      obtain rfl := List.length_eq_zero_iff.1 (Nat.le_zero.1 h)
      rw [hnil, hnil]
  | succ fuel ih =>
      cases fuel' with
      | zero =>
          obtain rfl := List.length_eq_zero_iff.1 (Nat.le_zero.1 h')
          rw [hnil, hnil]
      | succ fuel' =>
          rw [dropComments, dropComments]
          split
          · rfl
          · next rest hrest =>
              have hlt := length_behind_blanks hrest
              have hsame : dropComments fuel rest = dropComments fuel' rest :=
                ih (by omega) (by omega)
              rw [hsame]

theorem dropLeadingComments_of_none (h : behindComment? (trimLeft cs) = none) :
    dropLeadingComments cs = cs := by
  rw [dropLeadingComments, dropComments_congr (Nat.le_refl _) (Nat.le_succ _), dropComments, h]

theorem dropLeadingComments_of_some (h : behindComment? (trimLeft cs) = some rest) :
    dropLeadingComments cs = trimLeft (dropLeadingComments rest) := by
  have hlt := length_behind_blanks h
  rw [dropLeadingComments, dropComments_congr (Nat.le_refl _) (Nat.le_succ _), dropComments, h,
    dropLeadingComments]
  exact congrArg trimLeft (dropComments_congr (Nat.le_of_lt hlt) (Nat.le_refl _))

theorem trimLeft_dropLeadingComments (cs : List Char) :
    trimLeft (dropLeadingComments cs) = dropLeadingComments (trimLeft cs) := by
  have htwice : behindComment? (trimLeft (trimLeft cs)) = behindComment? (trimLeft cs) := by
    rw [trimLeft_trimLeft]
  cases h : behindComment? (trimLeft cs) with
  | none => rw [dropLeadingComments_of_none h, dropLeadingComments_of_none (htwice.trans h)]
  | some rest =>
      rw [dropLeadingComments_of_some h, dropLeadingComments_of_some (htwice.trans h),
        trimLeft_trimLeft]

theorem behindBlockComment?_trimRight (cs : List Char) :
    behindBlockComment? (trimRight cs) = (behindBlockComment? cs).map trimRight := by
  fun_induction behindBlockComment? cs with
  | case1 => rfl
  | case2 cs =>
      rw [trimRight_cons_of_not_blank (by decide), trimRight_cons_of_not_blank (by decide)]
      rfl
  | case3 c cs hend ih =>
      rcases trimRight_cons c cs with ⟨-, hcs, hnil⟩ | hcons
      · rw [hcs] at ih
        rw [hnil, ← ih]
      · rw [hcons, behindBlockComment?.eq_3 _ _ ?_, ih]
        intro tail hc htail
        obtain ⟨more, hmore⟩ := trimRight_prefix cs
        rw [htail] at hmore
        exact hend _ hc hmore.symm

theorem behindComment?_trimRight (cs : List Char) :
    behindComment? (trimRight cs) = (behindComment? cs).map trimRight := by
  fun_cases behindComment? cs with
  | case1 cs =>
      rw [trimRight_cons_of_not_blank (by decide), trimRight_cons_of_not_blank (by decide),
        behindComment?, dropWhile_trimRight]
      rfl
  | case2 cs =>
      rw [trimRight_cons_of_not_blank (by decide), trimRight_cons_of_not_blank (by decide),
        behindComment?, behindBlockComment?_trimRight]
  | case3 _ hline hblock =>
      obtain ⟨more, hmore⟩ := trimRight_prefix cs
      refine behindComment?.eq_3 _ (fun tail htail => ?_) fun tail htail => ?_
      · rw [htail] at hmore
        exact hline _ hmore.symm
      · rw [htail] at hmore
        exact hblock _ hmore.symm

-- A comment ends in no blank, but where it runs to the end of the text.
theorem dropLeadingComments_trimRight (cs : List Char) :
    dropLeadingComments (trimRight cs) = trimRight (dropLeadingComments cs) := by
  have hblanks (cs : List Char) : trimLeft (trimRight cs) = trimRight (trimLeft cs) :=
    dropWhile_trimRight isBlank cs
  have hbehind : behindComment? (trimLeft (trimRight cs)) =
      (behindComment? (trimLeft cs)).map trimRight := by
    rw [hblanks, behindComment?_trimRight]
  cases h : behindComment? (trimLeft cs) with
  | none =>
      rw [h] at hbehind
      rw [dropLeadingComments_of_none h, dropLeadingComments_of_none hbehind]
  | some rest =>
      rw [h] at hbehind
      have hlt := length_behind_blanks h
      rw [dropLeadingComments_of_some h, dropLeadingComments_of_some hbehind,
        dropLeadingComments_trimRight rest, hblanks]
termination_by cs.length

end

inductive Comment : List Char → Prop where
  | line {text : List Char} (h : '\n' ∉ text) : Comment ('/' :: '/' :: (text ++ ['\n']))
  | block {text : List Char} (h : ¬ ['*', '/'] <:+: text) :
      Comment ('/' :: '*' :: (text ++ ['*', '/']))

theorem behindBlockComment?_append {text : List Char} (h : ¬ ['*', '/'] <:+: text)
    (rest : List Char) : behindBlockComment? (text ++ '*' :: '/' :: rest) = some rest := by
  induction text with
  | nil => rfl
  | cons c text ih =>
      have htext : ¬ ['*', '/'] <:+: text := fun hinfix => h (List.infix_cons hinfix)
      rw [List.cons_append, behindBlockComment?.eq_3 _ _ ?_, ih htext]
      rintro tail rfl htail
      -- The end of a comment starts neither in the text nor at its last character.
      cases text with
      | nil => exact absurd (List.cons.inj htail).1 (by decide)
      | cons d text =>
          obtain ⟨rfl, -⟩ := List.cons.inj htail
          exact h ⟨[], text, rfl⟩

theorem dropLeadingComments_append {comment : List Char} (h : Comment comment)
    (rest : List Char) : dropLeadingComments (comment ++ rest) =
      dropLeadingComments (trimLeft rest) := by
  cases h with
  | @line text hline =>
      have hbehind : behindComment? ('/' :: '/' :: (text ++ '\n' :: rest)) = some ('\n' :: rest) := by
        have htext : ∀ c ∈ text, (c != '\n') = true := by
          intro c hc
          simp only [bne_iff_ne]
          rintro rfl
          exact hline hc
        rw [behindComment?, List.dropWhile_append_of_pos htext]
        rfl
      have hcomment : '/' :: '/' :: (text ++ ['\n']) ++ rest =
          '/' :: '/' :: (text ++ '\n' :: rest) := by simp
      rw [hcomment, dropLeadingComments_of_some (by rwa [trimLeft_cons (by decide)]),
        trimLeft_dropLeadingComments, trimLeft_blank (by decide)]
  | @block text hblock =>
      have hbehind : behindComment? ('/' :: '*' :: (text ++ '*' :: '/' :: rest)) = some rest :=
        behindBlockComment?_append hblock rest
      have hcomment : '/' :: '*' :: (text ++ ['*', '/']) ++ rest =
          '/' :: '*' :: (text ++ '*' :: '/' :: rest) := by simp
      rw [hcomment, dropLeadingComments_of_some (by rwa [trimLeft_cons (by decide)]),
        trimLeft_dropLeadingComments]

theorem trimLeft_comment {comment : List Char} (h : Comment comment) (rest : List Char) :
    trimLeft (comment ++ rest) = comment ++ rest := by
  cases h with
  | line => exact trimLeft_cons (by decide) _
  | block => exact trimLeft_cons (by decide) _

theorem ofEntry?_comment {comment : List Char} (h : Comment comment) (piece : List Char) :
    Field.ofEntry? (trim (comment ++ piece)) = Field.ofEntry? (trim piece) := by
  have hdrop : dropLeadingComments (trim (comment ++ piece)) = dropLeadingComments (trim piece) := by
    rw [trim, trim, trimLeft_comment h, dropLeadingComments_trimRight, dropLeadingComments_append h,
      dropLeadingComments_trimRight]
  rw [Field.ofEntry?, Field.ofEntry?, hdrop]

theorem parseFields_comment {comment : List Char} (h : Comment comment) (hinert : Inert comment)
    (back : List Char) : parseFields (comment ++ back) = parseFields back := by
  rw [parseFields_eq, parseFields_eq, hinert.solid 0 (Int.le_refl 0)]
  cases hpieces : piecesFrom 0 back with
  | nil => exact absurd hpieces (piecesFrom_ne_nil 0 back)
  | cons piece pieces =>
      rw [foldr_consPiece, List.filterMap_cons, List.filterMap_cons, ofEntry?_comment h]

theorem parseFields_leading_comment {comment : List Char} (h : Comment comment)
    (hinert : Inert comment) (back : List Char) :
    parseFields (comment ++ back) = parseFields back ∧
    ∀ front, Balanced front →
      parseFields (front ++ ',' :: (comment ++ back)) = parseFields (front ++ ',' :: back) := by
  refine ⟨parseFields_comment h hinert back, fun front hfront => ?_⟩
  rw [parseFields_comma hfront, parseFields_comment h hinert, parseFields_comma hfront]

def yearsComment : List Char :=
  "/* years: */".toList

theorem yearsComment_unseen :
    (Comment yearsComment ∧ Inert yearsComment ∧ Balanced tagsEntry) ∧
    parseFields (yearsComment ++ dateEntry) = parseFields dateEntry ∧
    parseFields (tagsEntry ++ ',' :: (yearsComment ++ dateEntry)) =
      parseFields (tagsEntry ++ ',' :: dateEntry) ∧
    (parseFields (tagsEntry ++ ',' :: (yearsComment ++ dateEntry))).map Field.name =
      ["tags", "at"] := by
  have hfree : ¬ ['*', '/'] <:+: " years: ".toList := by
    rw [← occursIn_iff]
    decide
  have hcomment : Comment yearsComment := .block hfree
  have hinert : Inert yearsComment := by
    intro c hc
    revert c
    decide
  have htags : Balanced tagsEntry := by decide
  obtain ⟨hfront, hbehind⟩ := parseFields_leading_comment hcomment hinert dateEntry
  exact ⟨⟨hcomment, hinert, htags⟩, hfront, hbehind tagsEntry htags, by decide⟩

end SchemaDiagram
