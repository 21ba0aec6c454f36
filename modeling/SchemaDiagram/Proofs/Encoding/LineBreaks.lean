import SchemaDiagram.Proofs.Encoding.Base64

namespace SchemaDiagram

inductive LineBroken : List Char → List Char → Prop where
  | nil : LineBroken [] []
  | keep (c : Char) {cs ds : List Char} : LineBroken cs ds → LineBroken (c :: cs) (c :: ds)
  | newline {cs ds : List Char} : LineBroken cs ds → LineBroken cs ('\n' :: ds)

namespace LineBroken

variable {cs ds : List Char}

theorem eq_or_mem (h : LineBroken cs ds) {c : Char} (hc : c ∈ ds) : c = '\n' ∨ c ∈ cs := by
  induction h with
  | nil => exact absurd hc List.not_mem_nil
  | keep d _ ih =>
      rcases List.mem_cons.1 hc with rfl | hc
      · exact .inr List.mem_cons_self
      · exact (ih hc).imp_right (List.mem_cons_of_mem d)
  | newline _ ih =>
      rcases List.mem_cons.1 hc with rfl | hc
      · exact .inl rfl
      · exact ih hc

theorem filter_eq (h : LineBroken cs ds) {p : Char → Bool} (hp : p '\n' = false) :
    ds.filter p = cs.filter p := by
  induction h with
  | nil => rfl
  | keep c _ ih => rw [List.filter_cons, List.filter_cons, ih]
  | newline _ ih => rw [List.filter_cons_of_neg (by simp [hp]), ih]

theorem of_filter (h : ds.filter (· != '\n') = cs) : LineBroken cs ds := by
  induction ds generalizing cs with
  | nil =>
      obtain rfl := h
      exact .nil
  | cons d ds ih =>
      by_cases hd : d = '\n'
      · rw [List.filter_cons_of_neg (by simp [hd])] at h
        exact hd ▸ .newline (ih h)
      · rw [List.filter_cons_of_pos (by simp [hd])] at h
        exact h ▸ .keep d (ih rfl)

end LineBroken

namespace Base64

variable {c : Char} {cs : List Char} {bs : Bytes}

theorem inAlphabet_eq_false (h : 0x80 ≤ c.toNat) : inAlphabet c = false := by
  have hne {d : Char} (hd : d.toNat < 0x80) : c ≠ d := by
    rintro rfl
    exact absurd hd (Nat.not_lt.2 h)
  have hvalue : value? c = none := by
    rw [value?, if_neg (by omega), if_neg (by omega), if_neg (by omega),
      if_neg (hne (by decide)), if_neg (hne (by decide))]
  have hpad : c ≠ '=' := hne (by decide)
  simp [inAlphabet, hpad, hvalue]

theorem inAlphabet_digit {n : Nat} (h : n < 64) : inAlphabet (digit n) = true := by
  simp [inAlphabet, value?_digit n h]

theorem inAlphabet_encode (bs : Bytes) : ∀ c ∈ encode bs, inAlphabet c = true := by
  have hpad : inAlphabet '=' = true := by decide
  fun_induction encode bs with
  | case1 => simp
  | case2 a =>
      have ha := a.toNat_lt
      simp only [List.forall_mem_cons]
      exact ⟨inAlphabet_digit (by omega), inAlphabet_digit (by omega), hpad, hpad, by simp⟩
  | case3 a b =>
      have ha := a.toNat_lt
      have hb := b.toNat_lt
      simp only [List.forall_mem_cons]
      exact ⟨inAlphabet_digit (by omega), inAlphabet_digit (by omega), inAlphabet_digit (by omega),
        hpad, by simp⟩
  | case4 a b c bs ih =>
      have ha := a.toNat_lt
      have hb := b.toNat_lt
      have hc := c.toNat_lt
      simp only [List.forall_mem_cons]
      exact ⟨inAlphabet_digit (by omega), inAlphabet_digit (by omega), inAlphabet_digit (by omega),
        inAlphabet_digit (by omega), ih⟩

theorem spells_of_lineBroken (h : LineBroken (encode bs) cs) : Spells cs bs := by
  constructor
  · intro c hc
    rcases h.eq_or_mem hc with rfl | hc
    · decide
    · have hmem := inAlphabet_encode bs c hc
      refine Nat.lt_of_not_le fun hbeyond => ?_
      simp [inAlphabet_eq_false hbeyond] at hmem
  · rw [h.filter_eq (by decide), List.filter_eq_self.2 (inAlphabet_encode bs)]

end Base64

end SchemaDiagram
