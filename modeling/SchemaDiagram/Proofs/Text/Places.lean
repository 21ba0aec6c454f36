import SchemaDiagram.Proofs.Text.Search

namespace SchemaDiagram.Text

section

variable {α : Type} {read : Recogniser α} {before : Option Char} {cs : List Char}
  {skip place : Nat} {found : Nat × α}

theorem le_of_mem_scan (h : found ∈ scan read skip place before cs) : place ≤ found.1 := by
  induction cs generalizing skip place before with
  | nil =>
      cases skip <;> exact absurd h List.not_mem_nil
  | cons c cs ih =>
      cases skip with
      | succ skip =>
          have hrest := ih h
          omega
      | zero =>
          rw [scan] at h
          split at h
          · have hrest := ih h
            omega
          · rcases List.mem_cons.1 h with rfl | h
            · exact Nat.le_refl place
            · have hrest := ih h
              omega

theorem pairwise_scan (read : Recogniser α) (skip place : Nat) (before : Option Char)
    (cs : List Char) : (scan read skip place before cs).Pairwise fun e f => e.1 < f.1 := by
  induction cs generalizing skip place before with
  | nil => cases skip <;> exact .nil
  | cons c cs ih =>
      cases skip with
      | succ skip => exact ih skip (place + 1) (some c)
      | zero =>
          rw [scan]
          split
          · exact ih 0 (place + 1) (some c)
          · exact .cons (fun _ hlater => le_of_mem_scan hlater) (ih _ (place + 1) (some c))

def ReadFrom (read : Recogniser α) (skip place : Nat) (before : Option Char) (cs : List Char)
    (found : Nat × α) : Prop :=
  ∃ p s rest, cs = p ++ s ∧ s ≠ [] ∧ skip ≤ p.length ∧ found.1 = place + p.length ∧
    read (behind before p) s = some (found.2, rest)

theorem not_readFrom_nil : ¬ ReadFrom read skip place before [] found := by
  rintro ⟨p, s, rest, hsplit, hne, -⟩
  exact hne (List.append_eq_nil_iff.1 hsplit.symm).2

theorem readFrom_cons {c : Char} : ReadFrom read skip place before (c :: cs) found ↔
    (skip = 0 ∧ found.1 = place ∧ ∃ rest, read before (c :: cs) = some (found.2, rest)) ∨
      ReadFrom read (skip - 1) (place + 1) (some c) cs found := by
  constructor
  · rintro ⟨p, s, rest, hsplit, hne, hskip, hplace, hread⟩
    cases p with
    | nil =>
        obtain rfl : c :: cs = s := hsplit
        exact .inl ⟨by simpa using hskip, hplace, rest, hread⟩
    | cons d p =>
        obtain ⟨rfl, rfl⟩ := List.cons.inj hsplit
        rw [List.length_cons] at hskip hplace
        exact .inr ⟨p, s, rest, rfl, hne, by omega, by omega, hread⟩
  · rintro (⟨rfl, hplace, rest, hread⟩ | ⟨p, s, rest, rfl, hne, hskip, hplace, hread⟩)
    · exact ⟨[], c :: cs, rest, rfl, by simp, Nat.zero_le _, hplace, hread⟩
    · refine ⟨c :: p, s, rest, rfl, hne, ?_, ?_, hread⟩
      · rw [List.length_cons]
        omega
      · rw [List.length_cons]
        omega

theorem readFrom_of_mem_scan (h : found ∈ scan read skip place before cs) :
    ReadFrom read skip place before cs found := by
  induction cs generalizing skip place before with
  | nil =>
      cases skip <;> exact absurd h List.not_mem_nil
  | cons c cs ih =>
      rw [readFrom_cons]
      cases skip with
      | succ skip => exact .inr (ih h)
      | zero =>
          rw [scan] at h
          split at h
          · exact .inr (ih h)
          · next a rest hread =>
              rcases List.mem_cons.1 h with rfl | h
              · exact .inl ⟨rfl, rfl, rest, hread⟩
              · obtain ⟨p, s, left, hsplit, hne, -, hplace, hleft⟩ := ih h
                exact .inr ⟨p, s, left, hsplit, hne, Nat.zero_le _, hplace, hleft⟩

theorem exists_read_of_mem_findAll (h : found ∈ findAll read cs) :
    ∃ p s rest, cs = p ++ s ∧ found.1 = p.length ∧
      read (behind none p) s = some (found.2, rest) := by
  obtain ⟨p, s, rest, hsplit, -, -, hplace, hread⟩ := readFrom_of_mem_scan h
  exact ⟨p, s, rest, hsplit, by simpa using hplace, hread⟩

def Apart (read : Recogniser α) (cs : List Char) : Prop :=
  ∀ c more, c :: more <:+ cs → ∀ before a rest, read before (c :: more) = some (a, rest) →
    ∀ p s, more = p ++ s → p.length < more.length - rest.length → read (behind (some c) p) s = none

theorem Apart.tail {c : Char} (h : Apart read (c :: cs)) : Apart read cs := by
  intro d more hsuffix
  exact h d more (hsuffix.trans (List.suffix_cons c cs))

theorem Apart.readFrom_iff {c : Char} (h : Apart read (c :: cs)) {a : α} {rest : List Char}
    (hread : read before (c :: cs) = some (a, rest)) :
    ReadFrom read (cs.length - rest.length) place (some c) cs found ↔
      ReadFrom read 0 place (some c) cs found := by
  constructor
  · rintro ⟨p, s, left, hsplit, hne, -, hplace, hleft⟩
    exact ⟨p, s, left, hsplit, hne, Nat.zero_le _, hplace, hleft⟩
  · rintro ⟨p, s, left, hsplit, hne, -, hplace, hleft⟩
    refine ⟨p, s, left, hsplit, hne, ?_, hplace, hleft⟩
    refine Nat.le_of_not_lt fun hlt => ?_
    have hnone := h c cs (List.suffix_refl _) before a rest hread p s hsplit hlt
    rw [hnone] at hleft
    exact absurd hleft (by simp)

theorem mem_scan (h : Apart read cs) :
    found ∈ scan read skip place before cs ↔ ReadFrom read skip place before cs found := by
  induction cs generalizing skip place before with
  | nil =>
      have hnil : scan read skip place before [] = [] := by cases skip <;> rfl
      rw [hnil]
      exact iff_of_false List.not_mem_nil not_readFrom_nil
  | cons c cs ih =>
      rw [readFrom_cons]
      cases skip with
      | succ skip =>
          rw [scan, ih h.tail]
          simp
      | zero =>
          cases hread : read before (c :: cs) with
          | none =>
              rw [scan, hread, ih h.tail]
              simp
          | some reading =>
              obtain ⟨a, rest⟩ := reading
              rw [scan, hread, List.mem_cons, ih h.tail, h.readFrom_iff hread]
              obtain ⟨p, b⟩ := found
              simp [eq_comm]

theorem mem_findAll (h : Apart read cs) : found ∈ findAll read cs ↔
    ∃ p s rest, cs = p ++ s ∧ s ≠ [] ∧ found.1 = p.length ∧
      read (behind none p) s = some (found.2, rest) := by
  rw [findAll, mem_scan h, ReadFrom]
  simp

end

end SchemaDiagram.Text
