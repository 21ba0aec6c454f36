import SchemaDiagram.Schema.Bracket

/-!
Pairs of braces are found with a stack of open places, and are told by counting: a brace closes
another one if it is the first place up to which, from the other one on, as many braces close as
open.
-/

namespace SchemaDiagram

def between (cs : List Char) (i j : Nat) : List Char :=
  (cs.drop i).take (j + 1 - i)

/-- The brace at `i` is closed at `j`. -/
structure Partner (cs : List Char) (i j : Nat) : Prop where
  opening : cs[i]? = some '{'
  after : i < j
  even : (between cs i j).count '}' = (between cs i j).count '{'
  first : ∀ k, i < k → k < j → (between cs i k).count '}' ≠ (between cs i k).count '{'

theorem bracePairsFrom_other {c : Char} (hopen : c ≠ '{') (hclose : c ≠ '}') (place : Nat)
    (opened : List Nat) (rest : List Char) :
    bracePairsFrom place opened (c :: rest) = bracePairsFrom (place + 1) opened rest := by
  cases opened <;> simp [bracePairsFrom, hopen, hclose]

theorem bracePairsFrom_open (place : Nat) (opened : List Nat) (rest : List Char) :
    bracePairsFrom place opened ('{' :: rest) =
      bracePairsFrom (place + 1) (place :: opened) rest := by
  cases opened <;> simp [bracePairsFrom]

theorem bracePairsFrom_stray (place : Nat) (rest : List Char) :
    bracePairsFrom place [] ('}' :: rest) = bracePairsFrom (place + 1) [] rest := by
  simp [bracePairsFrom]

theorem bracePairsFrom_close (place o : Nat) (opened : List Nat) (rest : List Char) :
    bracePairsFrom place (o :: opened) ('}' :: rest) =
      (o, place) :: bracePairsFrom (place + 1) opened rest := by
  simp [bracePairsFrom]

def Exceeds (depth : Nat) (s : List Char) : Prop :=
  s.count '}' = s.count '{' + depth + 1

/-- The place closes a brace that was opened before the text, with so many others opened behind it. -/
def ClosesAt (depth : Nat) (cs : List Char) (k : Nat) : Prop :=
  Exceeds depth (cs.take (k + 1)) ∧ ∀ m < k, ¬ Exceeds depth (cs.take (m + 1))

section

variable {cs : List Char} {depth deeper k m : Nat} {c : Char}

theorem exceeds_open (s : List Char) : Exceeds depth ('{' :: s) ↔ Exceeds (depth + 1) s := by
  have hopen : ('{' :: s).count '{' = s.count '{' + 1 := by simp
  have hclose : ('{' :: s).count '}' = s.count '}' := by simp
  rw [Exceeds, Exceeds, hopen, hclose]
  omega

theorem exceeds_close (s : List Char) : Exceeds (depth + 1) ('}' :: s) ↔ Exceeds depth s := by
  have hopen : ('}' :: s).count '{' = s.count '{' := by simp
  have hclose : ('}' :: s).count '}' = s.count '}' + 1 := by simp
  rw [Exceeds, Exceeds, hopen, hclose]
  omega

theorem exceeds_other (hopen : c ≠ '{') (hclose : c ≠ '}') (s : List Char) :
    Exceeds depth (c :: s) ↔ Exceeds depth s := by
  rw [Exceeds, Exceeds, List.count_cons_of_ne hopen, List.count_cons_of_ne hclose]

theorem not_exceeds_nil : ¬ Exceeds depth [] := by
  rw [Exceeds, List.count_nil, List.count_nil]
  omega

theorem not_closesAt_nil : ¬ ClosesAt depth [] k := by
  rintro ⟨h, -⟩
  exact not_exceeds_nil h

theorem ClosesAt.unique (hk : ClosesAt depth cs k) (hm : ClosesAt depth cs m) : k = m := by
  rcases Nat.lt_trichotomy k m with hlt | heq | hgt
  · exact absurd hk.1 (hm.2 k hlt)
  · exact heq
  · exact absurd hm.1 (hk.2 m hgt)

theorem closesAt_cons (h : ∀ s, Exceeds depth (c :: s) ↔ Exceeds deeper s) :
    ClosesAt depth (c :: cs) k ↔ ∃ m, k = m + 1 ∧ ClosesAt deeper cs m := by
  -- Behind a character the rest of the text has to close what is open there.
  have hzero : ¬ Exceeds depth ((c :: cs).take 1) := by
    rw [List.take_succ_cons, h, List.take_zero]
    exact not_exceeds_nil
  constructor
  · rintro ⟨hk, hbefore⟩
    cases k with
    | zero => exact absurd hk hzero
    | succ m =>
        rw [List.take_succ_cons, h] at hk
        refine ⟨m, rfl, hk, fun l hl hl' => ?_⟩
        have hearlier := hbefore (l + 1) (by omega)
        rw [List.take_succ_cons, h] at hearlier
        exact hearlier hl'
  · rintro ⟨m, rfl, hm, hbefore⟩
    refine ⟨by rwa [List.take_succ_cons, h], fun l hl => ?_⟩
    cases l with
    | zero => exact hzero
    | succ l =>
        rw [List.take_succ_cons, h]
        exact hbefore l (by omega)

theorem closesAt_close_zero : ClosesAt 0 ('}' :: cs) k ↔ k = 0 := by
  have hzero : ClosesAt 0 ('}' :: cs) 0 := by
    refine ⟨?_, fun m hm => absurd hm (by omega)⟩
    rw [List.take_succ_cons, List.take_zero]
    rfl
  constructor
  · intro h
    exact h.unique hzero
  · rintro rfl
    exact hzero

end

def ClosesOuter (place : Nat) (opened : List Nat) (cs : List Char) (i j : Nat) : Prop :=
  ∃ depth k, opened[depth]? = some i ∧ j = place + k ∧ ClosesAt depth cs k

def ClosesInner (place : Nat) (cs : List Char) (i j : Nat) : Prop :=
  ∃ m k, i = place + m ∧ cs[m]? = some '{' ∧ j = i + 1 + k ∧ ClosesAt 0 (cs.drop (m + 1)) k

section

variable {place i j : Nat} {opened : List Nat} {cs : List Char} {c : Char}

theorem closesInner_cons : ClosesInner place (c :: cs) i j ↔
    (c = '{' ∧ i = place ∧ ∃ k, j = place + 1 + k ∧ ClosesAt 0 cs k) ∨
      ClosesInner (place + 1) cs i j := by
  constructor
  · rintro ⟨m, k, rfl, hopen, rfl, hk⟩
    cases m with
    | zero => exact .inl ⟨by simpa using hopen, rfl, k, rfl, hk⟩
    | succ m => exact .inr ⟨m, k, by omega, by simpa using hopen, rfl, hk⟩
  · rintro (⟨rfl, rfl, k, rfl, hk⟩ | ⟨m, k, rfl, hopen, rfl, hk⟩)
    · exact ⟨0, k, rfl, rfl, rfl, hk⟩
    · exact ⟨m + 1, k, by omega, by simpa using hopen, rfl, hk⟩

theorem closesOuter_open : ClosesOuter (place + 1) (place :: opened) cs i j ↔
    (i = place ∧ ∃ k, j = place + 1 + k ∧ ClosesAt 0 cs k) ∨
      ClosesOuter place opened ('{' :: cs) i j := by
  constructor
  · rintro ⟨depth, k, hdepth, rfl, hk⟩
    cases depth with
    | zero => exact .inl ⟨by simpa using hdepth.symm, k, rfl, hk⟩
    | succ depth =>
        refine .inr ⟨depth, k + 1, by simpa using hdepth, by omega, ?_⟩
        exact (closesAt_cons exceeds_open).2 ⟨k, rfl, hk⟩
  · rintro (⟨rfl, k, rfl, hk⟩ | ⟨depth, k, hdepth, rfl, hk⟩)
    · exact ⟨0, k, rfl, rfl, hk⟩
    · obtain ⟨m, rfl, hm⟩ := (closesAt_cons exceeds_open).1 hk
      exact ⟨depth + 1, m, by simpa using hdepth, by omega, hm⟩

theorem closesOuter_close {o : Nat} : ClosesOuter place (o :: opened) ('}' :: cs) i j ↔
    (i = o ∧ j = place) ∨ ClosesOuter (place + 1) opened cs i j := by
  constructor
  · rintro ⟨depth, k, hdepth, rfl, hk⟩
    cases depth with
    | zero =>
        obtain rfl := closesAt_close_zero.1 hk
        exact .inl ⟨by simpa using hdepth.symm, rfl⟩
    | succ depth =>
        obtain ⟨m, rfl, hm⟩ := (closesAt_cons exceeds_close).1 hk
        exact .inr ⟨depth, m, by simpa using hdepth, by omega, hm⟩
  · rintro (⟨rfl, rfl⟩ | ⟨depth, k, hdepth, rfl, hk⟩)
    · exact ⟨0, 0, rfl, rfl, closesAt_close_zero.2 rfl⟩
    · refine ⟨depth + 1, k + 1, by simpa using hdepth, by omega, ?_⟩
      exact (closesAt_cons exceeds_close).2 ⟨k, rfl, hk⟩

theorem closesOuter_other (hopen : c ≠ '{') (hclose : c ≠ '}') :
    ClosesOuter place opened (c :: cs) i j ↔ ClosesOuter (place + 1) opened cs i j := by
  constructor
  · rintro ⟨depth, k, hdepth, rfl, hk⟩
    obtain ⟨m, rfl, hm⟩ := (closesAt_cons (exceeds_other hopen hclose)).1 hk
    exact ⟨depth, m, hdepth, by omega, hm⟩
  · rintro ⟨depth, k, hdepth, rfl, hk⟩
    refine ⟨depth, k + 1, hdepth, by omega, ?_⟩
    exact (closesAt_cons (exceeds_other hopen hclose)).2 ⟨k, rfl, hk⟩

theorem not_closesOuter_nil : ¬ ClosesOuter place [] cs i j := by
  rintro ⟨depth, k, hdepth, -⟩
  simp at hdepth

theorem mem_bracePairsFrom : (i, j) ∈ bracePairsFrom place opened cs ↔
    ClosesOuter place opened cs i j ∨ ClosesInner place cs i j := by
  induction cs generalizing place opened with
  | nil =>
      constructor
      · intro h
        cases opened <;> simp [bracePairsFrom] at h
      · rintro (⟨depth, k, -, -, hk⟩ | ⟨m, k, -, hopen, -⟩)
        · exact absurd hk not_closesAt_nil
        · simp at hopen
  | cons c cs ih =>
      by_cases hopen : c = '{'
      · subst hopen
        rw [bracePairsFrom_open, ih, closesOuter_open, closesInner_cons]
        simp only [true_and]
        rw [or_assoc, or_left_comm]
      rw [closesInner_cons]
      simp only [hopen, false_and, false_or]
      by_cases hclose : c = '}'
      · subst hclose
        cases opened with
        | nil =>
            rw [bracePairsFrom_stray, ih]
            simp only [not_closesOuter_nil]
        | cons o opened =>
            rw [bracePairsFrom_close, List.mem_cons, Prod.mk.injEq, ih, closesOuter_close, or_assoc]
      · rw [bracePairsFrom_other hopen hclose, ih, closesOuter_other hopen hclose]

end

section

variable {cs : List Char} {start i j : Nat}

theorem between_of_opening (h : cs[i]? = some '{') (k : Nat) :
    between cs i (i + 1 + k) = '{' :: (cs.drop (i + 1)).take (k + 1) := by
  obtain ⟨hlt, hi⟩ := List.getElem?_eq_some_iff.1 h
  have hlength : i + 1 + k + 1 - i = k + 1 + 1 := by omega
  rw [between, hlength, List.drop_eq_getElem_cons hlt, hi, List.take_succ_cons]

theorem even_iff_exceeds (h : cs[i]? = some '{') (k : Nat) :
    (between cs i (i + 1 + k)).count '}' = (between cs i (i + 1 + k)).count '{' ↔
      Exceeds 0 ((cs.drop (i + 1)).take (k + 1)) := by
  rw [between_of_opening h, Exceeds, List.count_cons_self, List.count_cons_of_ne (by decide)]

theorem partner_iff_closesAt : Partner cs i j ↔
    cs[i]? = some '{' ∧ ∃ k, j = i + 1 + k ∧ ClosesAt 0 (cs.drop (i + 1)) k := by
  constructor
  · rintro ⟨hopen, hafter, heven, hfirst⟩
    obtain ⟨k, rfl⟩ : ∃ k, j = i + 1 + k := ⟨j - (i + 1), by omega⟩
    refine ⟨hopen, k, rfl, (even_iff_exceeds hopen k).1 heven, fun m hm hexceeds => ?_⟩
    exact hfirst (i + 1 + m) (by omega) (by omega) ((even_iff_exceeds hopen m).2 hexceeds)
  · rintro ⟨hopen, k, rfl, hk, hbefore⟩
    refine ⟨hopen, by omega, (even_iff_exceeds hopen k).2 hk, fun l hl hl' heven => ?_⟩
    obtain ⟨m, rfl⟩ : ∃ m, l = i + 1 + m := ⟨l - (i + 1), by omega⟩
    exact hbefore m (by omega) ((even_iff_exceeds hopen m).1 heven)

theorem mem_bracePairsFrom_drop : (i, j) ∈ bracePairsFrom start [] (cs.drop start) ↔
    start ≤ i ∧ Partner cs i j := by
  rw [mem_bracePairsFrom, partner_iff_closesAt]
  simp only [not_closesOuter_nil, false_or]
  constructor
  · rintro ⟨m, k, rfl, hopen, rfl, hk⟩
    rw [List.getElem?_drop] at hopen
    rw [List.drop_drop] at hk
    exact ⟨by omega, hopen, k, rfl, hk⟩
  · rintro ⟨hstart, hopen, k, rfl, hk⟩
    obtain ⟨m, rfl⟩ : ∃ m, i = start + m := ⟨i - start, by omega⟩
    refine ⟨m, k, rfl, ?_, rfl, ?_⟩
    · rw [List.getElem?_drop]
      exact hopen
    · rw [List.drop_drop]
      exact hk

theorem Partner.unique {j' : Nat} (h : Partner cs i j) (h' : Partner cs i j') : j = j' := by
  obtain ⟨-, k, rfl, hk⟩ := partner_iff_closesAt.1 h
  obtain ⟨-, k', rfl, hk'⟩ := partner_iff_closesAt.1 h'
  rw [hk.unique hk']

end

theorem mem_of_lookup {pairs : List (Nat × Nat)} {i j : Nat} (h : pairs.lookup i = some j) :
    (i, j) ∈ pairs := by
  obtain ⟨before, after, rfl, -⟩ := List.lookup_eq_some_iff.1 h
  exact List.mem_append_right before List.mem_cons_self

theorem lookup_of_mem {pairs : List (Nat × Nat)} {i j : Nat} (h : (i, j) ∈ pairs)
    (hunique : ∀ k, (i, k) ∈ pairs → k = j) : pairs.lookup i = some j := by
  have hsome : (pairs.lookup i).isSome = true :=
    List.lookup_isSome_iff.2 ⟨(i, j), h, beq_self_eq_true i⟩
  obtain ⟨k, hk⟩ := Option.isSome_iff_exists.1 hsome
  rw [hk, hunique k (mem_of_lookup hk)]

theorem lookup_bracePairsFrom {cs : List Char} {i j : Nat} :
    (bracePairsFrom 0 [] cs).lookup i = some j ↔ Partner cs i j := by
  have hmem (k : Nat) : (i, k) ∈ bracePairsFrom 0 [] cs ↔ Partner cs i k := by
    have hdrop : (i, k) ∈ bracePairsFrom 0 [] (cs.drop 0) ↔ 0 ≤ i ∧ Partner cs i k :=
      mem_bracePairsFrom_drop
    simpa using hdrop
  constructor
  · intro h
    exact (hmem j).1 (mem_of_lookup h)
  · intro h
    exact lookup_of_mem ((hmem j).2 h) fun k hk => ((hmem k).1 hk).unique h

end SchemaDiagram
