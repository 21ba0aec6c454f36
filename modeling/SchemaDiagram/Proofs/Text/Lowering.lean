import SchemaDiagram.Proofs.Text.Search
import SchemaDiagram.Text.Case

/-!
Texts in lower case. Each of their characters is its own lower-case form; so a text that has another
one stands in none of them, and a text that has not stands wherever it stood before.
-/

namespace SchemaDiagram.Text

namespace CaseRun

def image (r : CaseRun) (n : Nat) : Nat :=
  (Int.ofNat n + r.shift).toNat

def sparse (r : CaseRun) : Bool :=
  Nat.beq r.step 2 || Nat.beq r.first r.last

def misses (low high : Nat) (sparse : Bool) (s : CaseRun) : Bool :=
  Nat.blt high s.first || Nat.blt s.last low ||
    (sparse && Nat.beq s.step 2 && Nat.beq ((low + s.first) % 2) 1)

/-- Whether a run leads to numbers of characters that are their own lower-case forms: a `k`, or
such beyond ASCII that no run covers. -/
def settles (r : CaseRun) : Bool :=
  let low := r.image r.first
  let high := r.image r.last
  (Nat.ble 0x80 low || (Nat.beq low 0x6B && Nat.beq high 0x6B)) &&
    (Nat.blt high 0x130 || Nat.blt 0x130 low) &&
    (Nat.blt high 0xD800 || (Nat.ble 0xE000 low && Nat.blt high 0x110000)) &&
    lowerRuns.all (misses low high r.sparse)

theorem settles_lowerRuns : lowerRuns.all settles = true := by
  decide +kernel

theorem exists_image_eq {runs : List CaseRun} {n m : Nat} (h : CaseRun.apply? runs n = some m) :
    ∃ r ∈ runs, r.covers n = true ∧ r.image n = m := by
  obtain ⟨r, hfound, hm⟩ := Option.map_eq_some_iff.1 h
  have hcovers := List.find?_some hfound
  exact ⟨r, List.mem_of_find?_eq_some hfound, hcovers, hm⟩

theorem unmoved {runs : List CaseRun} {n : Nat} (h : ∀ r ∈ runs, r.covers n = false) :
    CaseRun.apply? runs n = none := by
  refine Option.map_eq_none_iff.2 (List.find?_eq_none.2 fun r hr => ?_)
  rw [h r hr]
  exact Bool.false_ne_true

section

variable {r s : CaseRun} {n m low high : Nat}

theorem covers_iff : r.covers n = true ↔
    r.first ≤ n ∧ n ≤ r.last ∧ (n - r.first) % r.step = 0 := by
  simp [covers, and_assoc]

theorem image_bounds (h : r.covers n = true) :
    r.image r.first ≤ r.image n ∧ r.image n ≤ r.image r.last := by
  obtain ⟨hfirst, hlast, -⟩ := covers_iff.1 h
  simp only [image, Int.ofNat_eq_natCast]
  omega

theorem image_parity (h : r.covers n = true) (hsparse : r.sparse = true)
    (hpositive : 0 < r.image r.first) : r.image n % 2 = r.image r.first % 2 := by
  obtain ⟨hfirst, hlast, hstep⟩ := covers_iff.1 h
  have heven : (n - r.first) % 2 = 0 := by
    simp only [sparse, Bool.or_eq_true, Nat.beq_eq] at hsparse
    rcases hsparse with htwo | hone
    · rwa [htwo] at hstep
    · omega
  simp only [image, Int.ofNat_eq_natCast] at hpositive ⊢
  omega

theorem covers_eq_false {sparse : Bool} (h : misses low high sparse s = true) (hlow : low ≤ m)
    (hhigh : m ≤ high) (hparity : sparse = true → m % 2 = low % 2) : s.covers m = false := by
  refine Bool.eq_false_iff.2 fun hcovers => ?_
  obtain ⟨hfirst, hlast, hstep⟩ := covers_iff.1 hcovers
  simp only [misses, Bool.or_eq_true, Bool.and_eq_true, Nat.blt_eq, Nat.beq_eq] at h
  rcases h with (hbelow | habove) | ⟨⟨hsparse, htwo⟩, hodd⟩
  · omega
  · omega
  · have heven := hparity hsparse
    rw [htwo] at hstep
    omega

end

end CaseRun

def Settled (c : Char) : Prop :=
  lowerChar c = [c]

instance (c : Char) : Decidable (Settled c) :=
  inferInstanceAs (Decidable (lowerChar c = [c]))

theorem toNat_char {n : Nat} (h : n.isValidChar) : (Char.ofNat n).toNat = n := by
  unfold Char.ofNat
  rw [dif_pos h]
  rfl

theorem settled_lowerAscii : ∀ n < 0x80, Settled (Char.ofNat n).toLower ∧
    ((Char.ofNat n).toLower = '/' → Char.ofNat n = '/') := by
  decide +kernel

theorem settled_image {r : CaseRun} {n : Nat} (hr : r ∈ lowerRuns) (h : r.covers n = true) :
    Settled (Char.ofNat (r.image n)) ∧ Char.ofNat (r.image n) ≠ '/' := by
  have hsettles := List.all_eq_true.1 CaseRun.settles_lowerRuns r hr
  simp only [CaseRun.settles, Bool.and_eq_true, Bool.or_eq_true, Nat.ble_eq, Nat.blt_eq,
    Nat.beq_eq] at hsettles
  obtain ⟨⟨⟨hascii, hdotted⟩, hvalid⟩, hmissed⟩ := hsettles
  obtain ⟨hlow, hhigh⟩ := CaseRun.image_bounds h
  have hnat : (Char.ofNat (r.image n)).toNat = r.image n :=
    toNat_char (by unfold Nat.isValidChar; omega)
  by_cases hk : r.image n = 0x6B
  · rw [hk]
    decide
  · have hwide : 0x80 ≤ r.image n := by omega
    have hslash : Char.ofNat (r.image n) ≠ '/' := by
      intro heq
      rw [heq] at hnat
      have hcode : '/'.toNat = 0x2F := rfl
      omega
    have hnone : CaseRun.apply? lowerRuns (r.image n) = none := by
      refine CaseRun.unmoved fun s hs => ?_
      refine CaseRun.covers_eq_false (List.all_eq_true.1 hmissed s hs) hlow hhigh fun hsparse => ?_
      exact CaseRun.image_parity h hsparse (by omega)
    have hcapital : Char.ofNat (r.image n) ≠ '\u0130' := by
      intro heq
      rw [heq] at hnat
      have hcode : '\u0130'.toNat = 0x130 := rfl
      omega
    refine ⟨?_, hslash⟩
    rw [Settled, lowerChar, hnat, if_neg (by omega), if_neg hcapital, hnone]

theorem lowerChar_ne_nil (c : Char) : lowerChar c ≠ [] := by
  unfold lowerChar
  split
  · simp
  · split
    · simp
    · split <;> simp

theorem settled_of_mem_lowerChar {c d : Char} (h : d ∈ lowerChar c) :
    Settled d ∧ (d = '/' → c = '/') := by
  by_cases hascii : c.toNat < 0x80
  · have hc := settled_lowerAscii c.toNat hascii
    rw [Char.ofNat_toNat] at hc
    rw [lowerChar, if_pos hascii, List.mem_singleton] at h
    rw [h]
    exact hc
  · by_cases hdotted : c = '\u0130'
    · have hall : ∀ d ∈ lowerChar '\u0130', Settled d ∧ d ≠ '/' := by decide +kernel
      rw [hdotted] at h
      exact ⟨(hall d h).1, fun hslash => absurd hslash (hall d h).2⟩
    · rw [lowerChar, if_neg hascii, if_neg hdotted] at h
      split at h
      · next n hmapped =>
          obtain ⟨r, hr, hcovers, rfl⟩ := CaseRun.exists_image_eq hmapped
          obtain ⟨hsettled, hslash⟩ := settled_image hr hcovers
          rw [List.mem_singleton] at h
          rw [h]
          exact ⟨hsettled, fun heq => absurd heq hslash⟩
      · next hmapped =>
          rw [List.mem_singleton] at h
          subst h
          refine ⟨?_, id⟩
          rw [Settled, lowerChar, if_neg hascii, if_neg hdotted, hmapped]

section

variable {cs p before : List Char}

theorem mem_lowerFrom {d : Char} (h : d ∈ lowerFrom before cs) :
    Settled d ∧ (d = '/' → '/' ∈ cs) := by
  have hsigma : (Settled '\u03c2' ∧ '\u03c2' ≠ '/') ∧ Settled '\u03c3' ∧ '\u03c3' ≠ '/' := by
    decide +kernel
  induction cs generalizing before with
  | nil => exact absurd h List.not_mem_nil
  | cons c cs ih =>
      rw [lowerFrom] at h
      rcases List.mem_append.1 h with h | h
      · split at h
        · obtain ⟨hfinal, hother⟩ := hsigma
          rw [List.mem_singleton] at h
          split at h
          · rw [h]
            exact ⟨hfinal.1, fun heq => absurd heq hfinal.2⟩
          · rw [h]
            exact ⟨hother.1, fun heq => absurd heq hother.2⟩
        · obtain ⟨hsettled, hslash⟩ := settled_of_mem_lowerChar h
          exact ⟨hsettled, fun heq => by simp [hslash heq]⟩
      · obtain ⟨hsettled, hslash⟩ := ih h
        exact ⟨hsettled, fun heq => List.mem_cons_of_mem c (hslash heq)⟩

theorem head_lowerFrom (h : (lowerFrom before cs).head? = some '/') : cs.head? = some '/' := by
  cases cs with
  | nil => exact h
  | cons c cs =>
      rw [lowerFrom] at h
      split at h
      · split at h
        · exact absurd (Option.some.inj h) (by decide)
        · exact absurd (Option.some.inj h) (by decide)
      · cases hchar : lowerChar c with
        | nil => exact absurd hchar (lowerChar_ne_nil c)
        | cons d ds =>
            rw [hchar] at h
            have hmem : d ∈ lowerChar c := by simp [hchar]
            exact congrArg some ((settled_of_mem_lowerChar hmem).2 (Option.some.inj h))

theorem lowerFrom_cons {c : Char} (h : Settled c) :
    lowerFrom before (c :: cs) = c :: lowerFrom (c :: before) cs := by
  have hsigma : c ≠ '\u03a3' := by
    rintro rfl
    revert h
    decide +kernel
  have hchar : lowerChar c = [c] := h
  rw [lowerFrom, if_neg hsigma, hchar]
  rfl

theorem lowerFrom_append (h : ∀ c ∈ p, Settled c) (before rest : List Char) :
    lowerFrom before (p ++ rest) = p ++ lowerFrom (p.reverse ++ before) rest := by
  induction p generalizing before with
  | nil => rfl
  | cons c p ih =>
      obtain ⟨hc, hp⟩ := List.forall_mem_cons.1 h
      rw [List.cons_append, lowerFrom_cons hc, ih hp]
      simp

theorem exists_lowerFrom_append (before front rest : List Char) :
    ∃ left, lowerFrom before (front ++ rest) = left ++ lowerFrom (front.reverse ++ before) rest := by
  -- what a sigma becomes in front depends on the rest, so only that something stands there is said
  induction front generalizing before with
  | nil => exact ⟨[], rfl⟩
  | cons c front ih =>
      obtain ⟨left, hleft⟩ := ih (c :: before)
      rw [List.cons_append, lowerFrom, hleft, ← List.append_assoc, List.reverse_cons,
        List.append_assoc front.reverse]
      exact ⟨_, rfl⟩

theorem lower_eq_self_iff : lower p = p ↔ ∀ c ∈ p, Settled c := by
  constructor
  · intro h c hc
    rw [← h] at hc
    exact (mem_lowerFrom hc).1
  · intro h
    have hlower := lowerFrom_append h [] []
    rw [List.append_nil, lowerFrom, List.append_nil] at hlower
    exact hlower

theorem prefix_lowerFrom (hp : lower p = p) (h : p <+: cs) : p <+: lowerFrom before cs := by
  obtain ⟨rest, rfl⟩ := h
  rw [lowerFrom_append (lower_eq_self_iff.1 hp)]
  exact List.prefix_append _ _

theorem infix_lowerFrom (hp : lower p = p) (h : p <:+: cs) : p <:+: lowerFrom before cs := by
  obtain ⟨front, rest, rfl⟩ := h
  obtain ⟨left, hleft⟩ := exists_lowerFrom_append before front (p ++ rest)
  rw [List.append_assoc, hleft, lowerFrom_append (lower_eq_self_iff.1 hp), ← List.append_assoc]
  exact ⟨left, _, rfl⟩

theorem lower_eq_self_of_settled (h : ∀ c ∈ cs, Settled c) (hp : p <:+: cs) : lower p = p :=
  lower_eq_self_iff.2 fun c hc => h c (hp.subset hc)

end

theorem baseName_append {base : List Char} (h : '/' ∉ base) (front : List Char) :
    baseName (front ++ '/' :: base) = base := by
  have hall : ∀ c ∈ base.reverse, (c != '/') = true := by
    intro c hc
    simp only [bne_iff_ne]
    rintro rfl
    exact h (List.mem_reverse.1 hc)
  rw [baseName, List.reverse_append, List.reverse_cons, List.append_assoc,
    List.takeWhile_append_of_pos hall]
  simp

theorem baseName_cases (path : List Char) : '/' ∉ baseName path ∧
    (path = baseName path ∨ ∃ front, path = front ++ '/' :: baseName path) := by
  have hbase : '/' ∉ baseName path := by
    intro hmem
    have hall := List.all_eq_true.1 List.all_takeWhile '/' (List.mem_reverse.1 hmem)
    exact absurd hall (by simp)
  refine ⟨hbase, ?_⟩
  have hsplit := List.takeWhile_append_dropWhile (p := (· != '/')) (l := path.reverse)
  have hreverse := congrArg List.reverse hsplit
  rw [List.reverse_append, List.reverse_reverse] at hreverse
  cases hrest : path.reverse.dropWhile (· != '/') with
  | nil =>
      rw [hrest] at hreverse
      exact .inl hreverse.symm
  | cons c rest =>
      have hc : c = '/' := by
        have hhead := List.head?_dropWhile_not (· != '/') path.reverse
        rw [hrest] at hhead
        simpa using hhead
      rw [hrest, hc, List.reverse_cons, List.append_assoc] at hreverse
      exact .inr ⟨rest.reverse, hreverse.symm⟩

theorem exists_baseName_lower (path : List Char) :
    ∃ before, baseName (lower path) = lowerFrom before (baseName path) := by
  obtain ⟨hbase, hsplit⟩ := baseName_cases path
  have hnone (before : List Char) : '/' ∉ lowerFrom before (baseName path) :=
    fun hmem => hbase ((mem_lowerFrom hmem).2 rfl)
  rcases hsplit with hall | ⟨front, hfront⟩
  · have hlower : lower path = lowerFrom [] (baseName path) := by rw [← hall, lower]
    exact ⟨[], by rw [hlower, baseName_eq_self (hnone [])]⟩
  · obtain ⟨left, hleft⟩ := exists_lowerFrom_append [] front ('/' :: baseName path)
    rw [← hfront, lowerFrom_cons (by decide)] at hleft
    exact ⟨_, by rw [lower, hleft, baseName_append (hnone _)]⟩

end SchemaDiagram.Text
