import SchemaDiagram.Proofs.Schema.Braces

/-!
The pairs of braces as a map from opening to closing places: what it holds from any place on, and how
two of its pairs lie to each other.
-/

namespace SchemaDiagram

def Follows (p q : Nat × Nat) : Prop :=
  p.1 < q.1 ∧ (p.2 < q.1 ∨ q.2 < p.2)

section

variable {place start i j : Nat} {opened : List Nat} {cs : List Char}

theorem bounds_of_mem_bracePairsFrom (h : (i, j) ∈ bracePairsFrom place opened cs) :
    place ≤ j ∧ (i ∈ opened ∨ place ≤ i) := by
  induction cs generalizing place opened with
  | nil => cases opened <;> simp [bracePairsFrom] at h
  | cons c cs ih =>
      by_cases hopen : c = '{'
      · subst hopen
        rw [bracePairsFrom_open] at h
        obtain ⟨hj, hi⟩ := ih h
        refine ⟨by omega, ?_⟩
        rcases hi with hi | hi
        · exact (List.mem_cons.1 hi).symm.imp_right fun heq => by omega
        · exact .inr (by omega)
      by_cases hclose : c = '}'
      · subst hclose
        cases opened with
        | nil =>
            rw [bracePairsFrom_stray] at h
            obtain ⟨hj, hi⟩ := ih h
            exact ⟨by omega, hi.imp_right fun hplace => by omega⟩
        | cons o opened =>
            rw [bracePairsFrom_close, List.mem_cons, Prod.mk.injEq] at h
            rcases h with ⟨rfl, rfl⟩ | h
            · exact ⟨Nat.le_refl j, .inl List.mem_cons_self⟩
            · obtain ⟨hj, hi⟩ := ih h
              exact ⟨by omega, hi.imp (List.mem_cons_of_mem o) fun hplace => by omega⟩
      · rw [bracePairsFrom_other hopen hclose] at h
        obtain ⟨hj, hi⟩ := ih h
        exact ⟨by omega, hi.imp_right fun hplace => by omega⟩

theorem closings_bracePairsFrom (hbefore : ∀ o ∈ opened, o < place)
    (hlatest : opened.Pairwise (· > ·)) :
    (bracePairsFrom place opened cs).Pairwise fun p q => p.2 < q.2 ∧ (q.1 < p.1 ∨ p.2 < q.1) := by
  induction cs generalizing place opened with
  | nil =>
      have hnil : bracePairsFrom place opened [] = [] := by
        cases opened <;> rfl
      rw [hnil]
      exact .nil
  | cons c cs ih =>
      have hnext : ∀ o ∈ opened, o < place + 1 := fun o ho => Nat.lt_succ_of_lt (hbefore o ho)
      by_cases hopen : c = '{'
      · subst hopen
        rw [bracePairsFrom_open]
        refine ih (List.forall_mem_cons.2 ⟨Nat.lt_succ_self place, hnext⟩) ?_
        exact List.pairwise_cons.2 ⟨hbefore, hlatest⟩
      by_cases hclose : c = '}'
      · subst hclose
        cases opened with
        | nil =>
            rw [bracePairsFrom_stray]
            exact ih hnext hlatest
        | cons o opened =>
            obtain ⟨ho, hrest⟩ := List.pairwise_cons.1 hlatest
            rw [bracePairsFrom_close]
            refine List.pairwise_cons.2 ⟨?_, ih (fun k hk => hnext k (List.mem_cons_of_mem o hk)) hrest⟩
            rintro ⟨k, l⟩ hkl
            obtain ⟨hl, hk⟩ := bounds_of_mem_bracePairsFrom hkl
            exact ⟨hl, hk.imp (ho k) id⟩
      · rw [bracePairsFrom_other hopen hclose]
        exact ih hnext hlatest

theorem insertByOpening_perm (p : Nat × Nat) (ps : List (Nat × Nat)) :
    (insertByOpening p ps).Perm (p :: ps) := by
  induction ps with
  | nil => exact .refl _
  | cons q ps ih =>
      rw [insertByOpening]
      split
      · exact .refl _
      · exact (ih.cons q).trans (.swap p q ps)

theorem bracePairs_perm (cs : List Char) (start : Nat) :
    (bracePairs cs start).Perm (bracePairsFrom start [] (cs.drop start)) := by
  rw [bracePairs]
  induction bracePairsFrom start [] (cs.drop start) with
  | nil => exact .refl _
  | cons p ps ih =>
      rw [List.foldr_cons]
      exact (insertByOpening_perm p _).trans (ih.cons p)

theorem insertByOpening_sorted {ps : List (Nat × Nat)} (h : ps.Pairwise fun p q => p.1 ≤ q.1)
    (p : Nat × Nat) : (insertByOpening p ps).Pairwise fun p q => p.1 ≤ q.1 := by
  induction ps with
  | nil => exact List.pairwise_singleton _ _
  | cons q ps ih =>
      obtain ⟨hq, hps⟩ := List.pairwise_cons.1 h
      rw [insertByOpening]
      split
      · next hle =>
          refine List.pairwise_cons.2 ⟨List.forall_mem_cons.2 ⟨hle, fun r hr => ?_⟩, h⟩
          exact Nat.le_trans hle (hq r hr)
      · next hlt =>
          refine List.pairwise_cons.2 ⟨fun r hr => ?_, ih hps⟩
          rcases List.mem_cons.1 ((insertByOpening_perm p ps).mem_iff.1 hr) with rfl | hr
          · exact Nat.le_of_not_le hlt
          · exact hq r hr

theorem bracePairs_sorted (cs : List Char) (start : Nat) :
    (bracePairs cs start).Pairwise fun p q => p.1 ≤ q.1 := by
  rw [bracePairs]
  induction bracePairsFrom start [] (cs.drop start) with
  | nil => exact .nil
  | cons p ps ih => exact insertByOpening_sorted ih p

theorem mem_bracePairs : (i, j) ∈ bracePairs cs start ↔ start ≤ i ∧ Partner cs i j := by
  rw [(bracePairs_perm cs start).mem_iff, mem_bracePairsFrom_drop]

theorem lookup_bracePairs_from :
    (bracePairs cs start).lookup i = some j ↔ start ≤ i ∧ Partner cs i j := by
  constructor
  · intro h
    exact mem_bracePairs.1 (mem_of_lookup h)
  · intro h
    exact lookup_of_mem (mem_bracePairs.2 h) fun k hk => (mem_bracePairs.1 hk).2.unique h.2

theorem closingBrace?_eq_some_iff : closingBrace? cs i = some j ↔ Partner cs i j := by
  constructor
  · intro h
    exact (mem_bracePairsFrom_drop.1 (mem_of_lookup h)).2
  · intro h
    refine lookup_of_mem (mem_bracePairsFrom_drop.2 ⟨Nat.le_refl i, h⟩) fun k hk => ?_
    exact (mem_bracePairsFrom_drop.1 hk).2.unique h

def Uncrossed (p q : Nat × Nat) : Prop :=
  p.1 ≠ q.1 ∧ (p.1 < q.1 → p.2 < q.1 ∨ q.2 < p.2) ∧ (q.1 < p.1 → q.2 < p.1 ∨ p.2 < q.2)

theorem Uncrossed.symm {p q : Nat × Nat} (h : Uncrossed p q) : Uncrossed q p :=
  ⟨h.1.symm, h.2.2, h.2.1⟩

theorem uncrossed_bracePairs (cs : List Char) (start : Nat) :
    (bracePairs cs start).Pairwise Uncrossed := by
  rw [(bracePairs_perm cs start).pairwise_iff Uncrossed.symm]
  have hclosings : (bracePairsFrom start [] (cs.drop start)).Pairwise fun p q =>
      p.2 < q.2 ∧ (q.1 < p.1 ∨ p.2 < q.1) :=
    closings_bracePairsFrom (by simp) .nil
  refine hclosings.imp_of_mem ?_
  rintro ⟨i, j⟩ ⟨k, l⟩ hp - ⟨hlater, hopening⟩
  have hafter : i < j := (mem_bracePairsFrom_drop.1 hp).2.after
  simp only [Uncrossed] at hopening hlater ⊢
  omega

theorem bracePairs_follow (cs : List Char) (start : Nat) :
    (bracePairs cs start).Pairwise Follows := by
  refine ((bracePairs_sorted cs start).and (uncrossed_bracePairs cs start)).imp ?_
  rintro p q ⟨hle, hne, hlater, -⟩
  have hlt : p.1 < q.1 := Nat.lt_of_le_of_ne hle hne
  exact ⟨hlt, hlater hlt⟩

theorem bracePairs_exact (cs : List Char) :
    (∀ (start : Int) (i j : Nat),
      (bracePairs cs start.toNat).lookup i = some j ↔ max start 0 ≤ i ∧ Partner cs i j) ∧
    (∀ i, closingBrace? cs i = (bracePairs cs 0).lookup i) ∧
    ∀ start : Int, (bracePairs cs start.toNat).Pairwise Follows := by
  refine ⟨fun start i j => ?_, fun i => ?_, fun start => bracePairs_follow cs start.toNat⟩
  · have hstart : start.toNat ≤ i ↔ max start 0 ≤ i := by omega
    rw [lookup_bracePairs_from, hstart]
  · refine Option.ext fun j => ?_
    rw [closingBrace?_eq_some_iff, lookup_bracePairs_from]
    exact (and_iff_right (Nat.zero_le i)).symm

end

end SchemaDiagram
