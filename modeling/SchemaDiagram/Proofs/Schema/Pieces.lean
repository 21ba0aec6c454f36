import Mathlib.Data.List.Basic
import SchemaDiagram.Proofs.Text.Reading
import SchemaDiagram.Schema.Bracket

/-!
The commas at which a text is split. Those count before which as many brackets close as open. A comma
outside every bracket is one of them unless a closer before it has nothing to close: such a closer still
counts, so that behind it other commas are taken.
-/

namespace SchemaDiagram

open SchemaDiagram.Text

def Balanced (cs : List Char) : Prop :=
  cs.countP isOpener = cs.countP isCloser

instance (cs : List Char) : Decidable (Balanced cs) :=
  inferInstanceAs (Decidable (_ = _))

/-- What is open behind a character, the latest opener first. A closer closes that one, of whatever
kind it is, and nothing where none is open. -/
def openAfter (opened : List Char) (c : Char) : List Char :=
  if isOpener c then c :: opened else if isCloser c then opened.tail else opened

def stillOpen (cs : List Char) : List Char :=
  cs.foldl openAfter []

def straysFrom (opened : List Char) : List Char → Nat
  | [] => 0
  | c :: cs => (if isCloser c && opened.isEmpty then 1 else 0) + straysFrom (openAfter opened c) cs

def strays (cs : List Char) : Nat :=
  straysFrom [] cs

section

variable {c : Char} {cs : List Char}

theorem isCloser_of_isOpener (h : isOpener c = true) : isCloser c = false := by
  simp only [isOpener, Bool.or_eq_true, decide_eq_true_eq] at h
  rcases h with (rfl | rfl) | rfl
  · rfl
  · rfl
  · rfl

theorem depthAfter_eq (depth : Int) (c : Char) : depthAfter depth c =
    depth + (if isOpener c then 1 else 0 : Nat) - (if isCloser c then 1 else 0 : Nat) := by
  cases hopen : isOpener c with
  | true => simp [depthAfter, hopen, isCloser_of_isOpener hopen]
  | false => cases hclose : isCloser c <;> simp [depthAfter, hopen, hclose]

theorem foldl_depthAfter (depth : Int) (cs : List Char) :
    cs.foldl depthAfter depth = depth + cs.countP isOpener - cs.countP isCloser := by
  induction cs generalizing depth with
  | nil => simp
  | cons c cs ih =>
      rw [List.foldl_cons, ih, depthAfter_eq, List.countP_cons, List.countP_cons]
      omega

theorem depth_eq_zero_iff : cs.foldl depthAfter 0 = 0 ↔ Balanced cs := by
  rw [foldl_depthAfter, Balanced]
  omega

theorem depthAfter_add_stray (depth : Int) (opened : List Char) (c : Char) :
    depthAfter depth c + (if isCloser c && opened.isEmpty then 1 else 0 : Nat) + opened.length =
      depth + (openAfter opened c).length := by
  rw [depthAfter_eq]
  cases hopen : isOpener c with
  | true =>
      have hclose := isCloser_of_isOpener hopen
      simp only [openAfter, hopen, hclose, Bool.false_and, if_true, Bool.false_eq_true, if_false,
        List.length_cons]
      omega
  | false =>
      cases hclose : isCloser c with
      | true =>
          cases opened with
          | nil => simp [openAfter, hopen, hclose]
          | cons o opened =>
              simp only [openAfter, hopen, hclose, if_true, Bool.false_eq_true, if_false,
                List.isEmpty_cons, Bool.and_false, List.tail_cons, List.length_cons]
              omega
      | false => simp [openAfter, hopen, hclose]

theorem depth_add_strays (depth : Int) (opened cs : List Char) :
    cs.foldl depthAfter depth + straysFrom opened cs + opened.length =
      depth + (cs.foldl openAfter opened).length := by
  induction cs generalizing depth opened with
  | nil => simp [straysFrom]
  | cons c cs ih =>
      have hstep := depthAfter_add_stray depth opened c
      have hrest := ih (depthAfter depth c) (openAfter opened c)
      rw [List.foldl_cons, List.foldl_cons, straysFrom]
      omega

theorem balanced_iff_strays : Balanced cs ↔ (stillOpen cs).length = strays cs := by
  have hcount := depth_add_strays 0 [] cs
  rw [List.length_nil] at hcount
  rw [← depth_eq_zero_iff, stillOpen, strays]
  omega

theorem straysFrom_append (opened front back : List Char) :
    straysFrom opened (front ++ back) =
      straysFrom opened front + straysFrom (front.foldl openAfter opened) back := by
  induction front generalizing opened with
  | nil => simp [straysFrom]
  | cons c front ih =>
      rw [List.cons_append, straysFrom, straysFrom, ih, List.foldl_cons, Nat.add_assoc]

theorem strays_take_le (cs : List Char) (i : Nat) : strays (cs.take i) ≤ strays cs := by
  have hsplit := straysFrom_append [] (cs.take i) (cs.drop i)
  rw [List.take_append_drop] at hsplit
  rw [strays, strays, hsplit]
  exact Nat.le_add_right _ _

end

def cutsFrom (place : Nat) : List (List Char) → List Nat
  | [] => []
  | [_] => []
  | piece :: pieces => (place + piece.length) :: cutsFrom (place + piece.length + 1) pieces

section

variable {pieces : List (List Char)}

theorem cutsFrom_cons (place : Nat) (piece : List Char) (h : pieces ≠ []) :
    cutsFrom place (piece :: pieces) =
      (place + piece.length) :: cutsFrom (place + piece.length + 1) pieces := by
  cases pieces with
  | nil => exact absurd rfl h
  | cons _ _ => rfl

theorem cutsFrom_consPiece (place : Nat) (c : Char) (h : pieces ≠ []) :
    cutsFrom place (consPiece c pieces) = cutsFrom (place + 1) pieces := by
  cases pieces with
  | nil => exact absurd rfl h
  | cons piece pieces =>
      cases pieces with
      | nil => rfl
      | cons next pieces =>
          have hlength : place + (c :: piece).length = place + 1 + piece.length := by
            rw [List.length_cons]
            omega
          have hne := List.cons_ne_nil next pieces
          rw [consPiece, cutsFrom_cons place (c :: piece) hne, cutsFrom_cons (place + 1) piece hne,
            hlength]

theorem mem_cutsFrom_piecesFrom {place i : Nat} {depth : Int} {cs : List Char} :
    i ∈ cutsFrom place (piecesFrom depth cs) ↔
      ∃ k, i = place + k ∧ cs[k]? = some ',' ∧ (cs.take k).foldl depthAfter depth = 0 := by
  induction cs generalizing place depth with
  | nil => simp [piecesFrom, cutsFrom]
  | cons c cs ih =>
      have hne := piecesFrom_ne_nil depth cs
      rw [piecesFrom]
      split
      · next hcut =>
          obtain ⟨rfl, rfl⟩ : c = ',' ∧ depth = 0 := by simpa using hcut
          rw [cutsFrom_cons _ _ hne, List.mem_cons, List.length_nil, Nat.add_zero, ih]
          constructor
          · rintro (rfl | ⟨k, rfl, hcomma, hdepth⟩)
            · exact ⟨0, rfl, rfl, rfl⟩
            · exact ⟨k + 1, by omega, hcomma, hdepth⟩
          · rintro ⟨k, rfl, hcomma, hdepth⟩
            cases k with
            | zero => exact .inl rfl
            | succ k => exact .inr ⟨k, by omega, hcomma, hdepth⟩
      · next hcut =>
          rw [cutsFrom_consPiece _ _ (piecesFrom_ne_nil _ cs), ih]
          constructor
          · rintro ⟨k, rfl, hcomma, hdepth⟩
            exact ⟨k + 1, by omega, hcomma, hdepth⟩
          · rintro ⟨k, rfl, hcomma, hdepth⟩
            cases k with
            | zero =>
                obtain rfl : c = ',' := by simpa using hcomma
                obtain rfl : depth = 0 := hdepth
                simp at hcut
            | succ k => exact ⟨k, by omega, hcomma, hdepth⟩

end

structure CutWhere (P : List Char → Prop) (cs : List Char) (pieces : List (List Char)) : Prop where
  joined : joinWith [','] pieces = cs
  cuts : ∀ i, i ∈ cutsFrom 0 pieces ↔ cs[i]? = some ',' ∧ P (cs.take i)

def lastEntry (piece : List Char) : List (List Char) :=
  if trim piece = [] then [] else [trim piece]

def SplitWhere (P : List Char → Prop) (cs : List Char) (entries : List (List Char)) : Prop :=
  ∃ front last, CutWhere P cs (front ++ [last]) ∧ entries = front.map trim ++ lastEntry last

theorem dropEmptyLast_concat (front : List (List Char)) (last : List Char) :
    dropEmptyLast (front ++ [last]) = front ++ if last = [] then [] else [last] := by
  induction front with
  | nil => cases last <;> rfl
  | cons piece front ih =>
      have hnext : dropEmptyLast (piece :: (front ++ [last])) =
          piece :: dropEmptyLast (front ++ [last]) := by
        cases front <;> rfl
      rw [List.cons_append, hnext, ih, List.cons_append]

theorem cutWhere_piecesFrom (cs : List Char) : CutWhere Balanced cs (piecesFrom 0 cs) where
  joined := joinWith_piecesFrom 0 cs
  cuts i := by
    rw [mem_cutsFrom_piecesFrom]
    simp only [Nat.zero_add, depth_eq_zero_iff, exists_eq_left']

theorem splitWhere_balanced (cs : List Char) : SplitWhere Balanced cs (splitTopLevel cs) := by
  have hcut := cutWhere_piecesFrom cs
  obtain hnil | ⟨front, last, hpieces⟩ := List.eq_nil_or_concat (piecesFrom 0 cs)
  · exact absurd hnil (piecesFrom_ne_nil 0 cs)
  · rw [List.concat_eq_append] at hpieces
    rw [hpieces] at hcut
    refine ⟨front, last, hcut, ?_⟩
    rw [splitTopLevel, hpieces, List.map_append, List.map_singleton, dropEmptyLast_concat, lastEntry]

theorem SplitWhere.congr {P Q : List Char → Prop} {cs : List Char} {entries : List (List Char)}
    (hsame : ∀ i, cs[i]? = some ',' → (P (cs.take i) ↔ Q (cs.take i)))
    (h : SplitWhere P cs entries) : SplitWhere Q cs entries := by
  obtain ⟨front, last, ⟨hjoined, hcuts⟩, hentries⟩ := h
  refine ⟨front, last, ⟨hjoined, fun i => (hcuts i).trans ?_⟩, hentries⟩
  exact and_congr_right (hsame i)

theorem trim_ne_of_comma (piece rest : List Char) : trim (piece ++ ',' :: rest) ≠ trim piece := by
  intro h
  have hcount := congrArg (List.count ',') h
  rw [count_trim (by decide), count_trim (by decide), List.count_append, List.count_cons_self] at hcount
  omega

theorem lastEntry_of_comma (piece rest : List Char) :
    lastEntry (piece ++ ',' :: rest) = [trim (piece ++ ',' :: rest)] := by
  have hmem : ',' ∈ trim (piece ++ ',' :: rest) :=
    (mem_trim_iff (by decide)).2 (List.mem_append_right piece List.mem_cons_self)
  rw [lastEntry, if_neg (List.ne_nil_of_mem hmem)]

theorem joinWith_cons_concat (piece : List Char) (front : List (List Char)) (last : List Char) :
    joinWith [','] (piece :: front ++ [last]) =
      piece ++ ',' :: joinWith [','] (front ++ [last]) := by
  rw [List.cons_append, joinWith_cons _ _ (by simp), List.append_assoc, List.singleton_append]

theorem eq_of_trim_eq {piece piece' rest rest' : List Char} (htrim : trim piece = trim piece')
    (h : piece ++ ',' :: rest = piece' ++ ',' :: rest') : piece = piece' ∧ rest = rest' := by
  rcases List.append_eq_append_iff.1 h with ⟨more, hpiece, hrest⟩ | ⟨more, hpiece, hrest⟩
  · cases more with
    | nil => exact ⟨by simpa using hpiece.symm, by simpa using hrest⟩
    | cons c more =>
        obtain ⟨rfl, -⟩ := List.cons.inj hrest
        rw [hpiece] at htrim
        exact absurd htrim.symm (trim_ne_of_comma piece more)
  · cases more with
    | nil => exact ⟨by simpa using hpiece, by simpa using hrest.symm⟩
    | cons c more =>
        obtain ⟨rfl, -⟩ := List.cons.inj hrest
        rw [hpiece] at htrim
        exact absurd htrim (trim_ne_of_comma piece' more)

theorem pieces_unique {front front' : List (List Char)} {last last' : List Char}
    (hjoined : joinWith [','] (front ++ [last]) = joinWith [','] (front' ++ [last']))
    (hentries : front.map trim ++ lastEntry last = front'.map trim ++ lastEntry last') :
    front = front' ∧ last = last' := by
  induction front generalizing front' with
  | nil =>
      cases front' with
      | nil => exact ⟨rfl, hjoined⟩
      | cons piece front' =>
          -- The whole text has a comma more than its first piece, and a trimmed text keeps its commas.
          obtain rfl : last = _ := hjoined.trans (joinWith_cons_concat piece front' last')
          rw [lastEntry_of_comma] at hentries
          exact absurd (List.cons.inj hentries).1 (trim_ne_of_comma piece _)
  | cons piece front ih =>
      cases front' with
      | nil =>
          obtain rfl : last' = _ := hjoined.symm.trans (joinWith_cons_concat piece front last)
          rw [lastEntry_of_comma] at hentries
          exact absurd (List.cons.inj hentries).1.symm (trim_ne_of_comma piece _)
      | cons piece' front' =>
          rw [joinWith_cons_concat, joinWith_cons_concat] at hjoined
          obtain ⟨htrim, hothers⟩ := List.cons.inj hentries
          obtain ⟨rfl, hrest⟩ := eq_of_trim_eq htrim hjoined
          obtain ⟨rfl, rfl⟩ := ih hrest hothers
          exact ⟨rfl, rfl⟩

theorem SplitWhere.same_cuts {P Q : List Char → Prop} {cs : List Char} {entries : List (List Char)}
    (h : SplitWhere P cs entries) (h' : SplitWhere Q cs entries) {i : Nat}
    (hcomma : cs[i]? = some ',') : P (cs.take i) ↔ Q (cs.take i) := by
  obtain ⟨front, last, ⟨hjoined, hcuts⟩, hentries⟩ := h
  obtain ⟨front', last', ⟨hjoined', hcuts'⟩, hentries'⟩ := h'
  obtain ⟨rfl, rfl⟩ := pieces_unique (hjoined.trans hjoined'.symm) (hentries.symm.trans hentries')
  have hsame := (hcuts i).symm.trans (hcuts' i)
  simpa [hcomma] using hsame

/-- Nothing that opens in the text is still open behind it. -/
def Outside (before : List Char) : Prop :=
  stillOpen before = []

instance (before : List Char) : Decidable (Outside before) :=
  inferInstanceAs (Decidable (_ = _))

theorem balanced_iff_outside {before : List Char} : (Balanced before ↔ Outside before) ↔
    (strays before ≠ 0 → ¬ Outside before ∧ ¬ Balanced before) := by
  rw [balanced_iff_strays, Outside, ← List.length_eq_zero_iff]
  omega

theorem splitWhere_outside_iff {cs : List Char} : SplitWhere Outside cs (splitTopLevel cs) ↔
    ∀ i, cs[i]? = some ',' → strays (cs.take i) ≠ 0 →
      ¬ Outside (cs.take i) ∧ ¬ Balanced (cs.take i) := by
  constructor
  · intro h i hcomma
    exact balanced_iff_outside.1 ((splitWhere_balanced cs).same_cuts h hcomma)
  · intro h
    exact (splitWhere_balanced cs).congr fun i hcomma => balanced_iff_outside.2 (h i hcomma)

theorem splitTopLevel_outside (cs : List Char) :
    SplitWhere Balanced cs (splitTopLevel cs) ∧
    (SplitWhere Outside cs (splitTopLevel cs) ↔
      ∀ i, cs[i]? = some ',' → strays (cs.take i) ≠ 0 →
        ¬ Outside (cs.take i) ∧ ¬ Balanced (cs.take i)) ∧
    (strays cs = 0 → SplitWhere Outside cs (splitTopLevel cs)) := by
  refine ⟨splitWhere_balanced cs, splitWhere_outside_iff, fun hnone => ?_⟩
  refine splitWhere_outside_iff.2 fun i _ hstrays => absurd ?_ hstrays
  exact Nat.le_zero.1 (hnone ▸ strays_take_le cs i)

def bracketedValues : List Char :=
  "tags: [a, b], at: f(x, { y: 1, z: 2 }), ".toList

theorem bracketedValues_split : strays bracketedValues = 0 ∧
    SplitWhere Outside bracketedValues
      ["tags: [a, b]".toList, "at: f(x, { y: 1, z: 2 })".toList] := by
  have hnone : strays bracketedValues = 0 := by decide
  have hentries : splitTopLevel bracketedValues =
      ["tags: [a, b]".toList, "at: f(x, { y: 1, z: 2 })".toList] := by decide
  have hsplit := (splitTopLevel_outside bracketedValues).2.2 hnone
  rw [hentries] at hsplit
  exact ⟨hnone, hsplit⟩

def numberedComment : List Char :=
  "// 1) first\nname: String, age: Number".toList

theorem numberedComment_unsplit :
    ¬ SplitWhere Outside numberedComment (splitTopLevel numberedComment) := by
  rw [splitWhere_outside_iff]
  intro h
  have houtside : Outside (numberedComment.take 24) := by decide
  exact (h 24 (by decide) (by decide)).1 houtside

end SchemaDiagram
