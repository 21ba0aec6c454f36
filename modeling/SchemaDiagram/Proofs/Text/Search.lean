import SchemaDiagram.Text.Scan

/-!
Where the search for a recogniser passes over a text, and where it stops.
-/

namespace SchemaDiagram.Text

/-- Decided along the list. Characters are so many that to try them all would not end. -/
instance (priority := 2000) decidableForallMem {p : Char → Prop} [DecidablePred p]
    (cs : List Char) : Decidable (∀ c ∈ cs, p c) :=
  List.decidableBAll p cs

theorem ne_of_isWord {c d : Char} (hc : isWord c = true) (hd : isWord d = false) : c ≠ d := by
  rintro rfl
  rw [hc] at hd
  exact absurd hd (by simp)

def apart (rs ss : List (Nat × Nat)) : Bool :=
  rs.all fun r => ss.all fun s => r.2 < s.1 || s.2 < r.1

theorem inRanges_of_apart {rs ss : List (Nat × Nat)} {n : Nat} (h : apart rs ss = true)
    (hr : inRanges rs n = true) : inRanges ss n = false := by
  simp only [inRanges, List.any_eq_true, Bool.and_eq_true, decide_eq_true_eq] at hr
  obtain ⟨r, hmem, hlow, hhigh⟩ := hr
  simp only [inRanges, List.any_eq_false, Bool.and_eq_true, decide_eq_true_eq]
  rintro s hs ⟨hlow', hhigh'⟩
  have hrs := List.all_eq_true.1 (List.all_eq_true.1 h r hmem) s hs
  simp only [Bool.or_eq_true, decide_eq_true_eq] at hrs
  omega

theorem isAlphanum_iff {c : Char} : c.isAlphanum = true ↔
    (65 ≤ c.toNat ∧ c.toNat ≤ 90 ∨ 97 ≤ c.toNat ∧ c.toNat ≤ 122) ∨ 48 ≤ c.toNat ∧ c.toNat ≤ 57 := by
  have hletters : c.isAlphanum = ((decide (65 ≤ c.val ∧ c.val ≤ 90) ||
      (97 ≤ c.val && c.val ≤ 122)) || (48 ≤ c.val && c.val ≤ 57)) := rfl
  rw [hletters]
  simp only [Bool.or_eq_true, Bool.and_eq_true, decide_eq_true_eq]
  exact Iff.rfl

theorem isBlank_of_isWord {c : Char} (h : isWord c = true) : isBlank c = false := by
  have hwide : apart wideAlphanumericRanges blankRanges = true := by decide +kernel
  have hascii : apart [(48, 57), (65, 90), (95, 95), (97, 122)] blankRanges = true := by decide
  simp only [isWord, Bool.or_eq_true, beq_iff_eq] at h
  rcases h with h | rfl
  · simp only [isAlphanumeric] at h
    split at h
    · refine inRanges_of_apart hascii ?_
      simp only [inRanges, List.any_eq_true, Bool.and_eq_true, decide_eq_true_eq]
      rcases isAlphanum_iff.1 h with (⟨h₁, h₂⟩ | ⟨h₁, h₂⟩) | ⟨h₁, h₂⟩
      · exact ⟨(65, 90), by simp, h₁, h₂⟩
      · exact ⟨(97, 122), by simp, h₁, h₂⟩
      · exact ⟨(48, 57), by simp, h₁, h₂⟩
    · exact inRanges_of_apart hwide h
  · decide

def behind (before : Option Char) : List Char → Option Char
  | [] => before
  | c :: cs => behind (some c) cs

theorem behind_append (before : Option Char) (cs ds : List Char) :
    behind before (cs ++ ds) = behind (behind before cs) ds := by
  induction cs generalizing before with
  | nil => rfl
  | cons c cs ih => exact ih (some c)

theorem behind_concat (before : Option Char) (cs : List Char) (c : Char) :
    behind before (cs ++ [c]) = some c := by
  rw [behind_append]
  rfl

section

variable {α : Type} {read : Recogniser α} {lead trigger : Char → Bool} {before : Option Char}

def reaches (lead trigger : Char → Bool) : List Char → Bool
  | [] => false
  | c :: cs => trigger c || (lead c && reaches lead trigger cs)

/-- Nothing is read unless a trigger comes first. -/
def Guarded (lead trigger : Char → Bool) (read : Recogniser α) : Prop :=
  ∀ before cs found, read before cs = some found → reaches lead trigger cs = true

theorem reaches_append_of_lead {p rest : List Char} (hp : ∀ c ∈ p, lead c = true)
    (h : reaches lead trigger rest = true) : reaches lead trigger (p ++ rest) = true := by
  induction p with
  | nil => exact h
  | cons c p ih =>
      have hrest := ih fun d hd => hp d (List.mem_cons_of_mem _ hd)
      simp [reaches, hp c (by simp), hrest]

theorem reaches_append_of_quiet {q rest : List Char} (hq : ∀ c ∈ q, trigger c = false)
    (hr : reaches lead trigger rest = false) : reaches lead trigger (q ++ rest) = false := by
  induction q with
  | nil => exact hr
  | cons c q ih =>
      have hrest := ih fun d hd => hq d (List.mem_cons_of_mem _ hd)
      simp [reaches, hq c (by simp), hrest]

theorem Guarded.eq_none (hg : Guarded lead trigger read) {cs : List Char}
    (h : reaches lead trigger cs = false) : read before cs = none := by
  cases hread : read before cs with
  | none => rfl
  | some found =>
      have hreach := hg before cs found hread
      rw [h] at hreach
      exact absurd hreach (by simp)

theorem findFrom?_append_of_quiet (hg : Guarded lead trigger read) {q rest : List Char}
    (hq : ∀ c ∈ q, trigger c = false) (hr : reaches lead trigger rest = false) :
    findFrom? read before (q ++ rest) = findFrom? read (behind before q) rest := by
  induction q generalizing before with
  | nil => rfl
  | cons c q ih =>
      have hnone : read before (c :: (q ++ rest)) = none :=
        hg.eq_none (reaches_append_of_quiet (q := c :: q) hq hr)
      simp only [List.cons_append, findFrom?, hnone, behind]
      exact ih fun d hd => hq d (List.mem_cons_of_mem _ hd)

theorem scan_append_of_quiet (hg : Guarded lead trigger read) {q rest : List Char} (place : Nat)
    (hq : ∀ c ∈ q, trigger c = false) (hr : reaches lead trigger rest = false) :
    scan read 0 place before (q ++ rest) =
      scan read 0 (place + q.length) (behind before q) rest := by
  induction q generalizing before place with
  | nil => rfl
  | cons c q ih =>
      have hnone : read before (c :: (q ++ rest)) = none :=
        hg.eq_none (reaches_append_of_quiet (q := c :: q) hq hr)
      simp only [List.cons_append, scan, hnone, behind, List.length_cons]
      rw [ih _ fun d hd => hq d (List.mem_cons_of_mem _ hd)]
      congr 1
      omega

theorem findFrom?_append_of_none {q rest : List Char}
    (h : ∀ p, p <:+ q → p ≠ [] → ∀ before, read before (p ++ rest) = none) :
    findFrom? read before (q ++ rest) = findFrom? read (behind before q) rest := by
  induction q generalizing before with
  | nil => rfl
  | cons c q ih =>
      have hnone := h (c :: q) (List.suffix_refl _) (by simp) before
      rw [List.cons_append] at hnone
      simp only [List.cons_append, findFrom?, hnone, behind]
      exact ih fun p hp => h p (hp.trans (List.suffix_cons c q))

structure Worded (read : Recogniser α) : Prop where
  within : ∀ c cs, isWord c = true → read (some c) cs = none
  between : ∀ before c cs, isWord c = false → read before (c :: cs) = none
  atEnd : ∀ before, read before [] = none

theorem Worded.findFrom?_cons (hw : Worded read) {c : Char} (hc : isWord c = false)
    (rest : List Char) : findFrom? read before (c :: rest) = findFrom? read (some c) rest := by
  simp [findFrom?, hw.between before c rest hc]

theorem Worded.scan_cons (hw : Worded read) {c : Char} (hc : isWord c = false) (place : Nat)
    (rest : List Char) :
    scan read 0 place before (c :: rest) = scan read 0 (place + 1) (some c) rest := by
  simp [scan, hw.between before c rest hc]

theorem Worded.findFrom?_word (hw : Worded read) {w rest : List Char} (hne : w ≠ [])
    (hall : ∀ c ∈ w, isWord c = true) (hnone : read before (w ++ rest) = none) :
    findFrom? read before (w ++ rest) = findFrom? read (behind before w) rest := by
  induction w generalizing before with
  | nil => exact absurd rfl hne
  | cons c w ih =>
      simp only [List.cons_append] at hnone
      simp only [List.cons_append, findFrom?, hnone, behind]
      cases w with
      | nil => rfl
      | cons d w =>
          exact ih (by simp) (fun e he => hall e (List.mem_cons_of_mem _ he))
            (hw.within c _ (hall c (by simp)))

theorem Worded.scan_word (hw : Worded read) {w rest : List Char} (place : Nat) (hne : w ≠ [])
    (hall : ∀ c ∈ w, isWord c = true) (hnone : read before (w ++ rest) = none) :
    scan read 0 place before (w ++ rest) =
      scan read 0 (place + w.length) (behind before w) rest := by
  induction w generalizing before place with
  | nil => exact absurd rfl hne
  | cons c w ih =>
      simp only [List.cons_append] at hnone
      simp only [List.cons_append, scan, hnone, behind, List.length_cons]
      cases w with
      | nil => rfl
      | cons d w =>
          rw [ih _ (by simp) (fun e he => hall e (List.mem_cons_of_mem _ he))
            (hw.within c _ (hall c (by simp)))]
          congr 1
          simp only [List.length_cons]
          omega

theorem Guarded.map {β : Type} (hg : Guarded lead trigger read)
    (f : α × List Char → β × List Char) :
    Guarded lead trigger fun before cs => (read before cs).map f := by
  intro before cs found h
  obtain ⟨a, ha, -⟩ := Option.map_eq_some_iff.1 h
  exact hg before cs a ha

theorem Worded.map {β : Type} (hw : Worded read) (f : α × List Char → β × List Char) :
    Worded fun before cs => (read before cs).map f where
  within c cs hc := by simp [hw.within c cs hc]
  between before c cs hc := by simp [hw.between before c cs hc]
  atEnd before := by simp [hw.atEnd before]

theorem findFrom?_of_read {cs rest : List Char} {a : α} (h : read before cs = some (a, rest)) :
    findFrom? read before cs = some a := by
  cases cs <;> simp [findFrom?, h]

theorem exists_read_of_findFrom? {cs : List Char} {a : α} (h : findFrom? read before cs = some a) :
    ∃ earlier left rest, left <:+ cs ∧ read earlier left = some (a, rest) := by
  induction cs generalizing before with
  | nil =>
      obtain ⟨⟨b, rest⟩, hread, rfl⟩ := Option.map_eq_some_iff.1 h
      exact ⟨before, [], rest, List.suffix_refl [], hread⟩
  | cons c cs ih =>
      rw [findFrom?] at h
      cases hread : read before (c :: cs) with
      | none =>
          rw [hread] at h
          obtain ⟨earlier, left, rest, hsuffix, hleft⟩ := ih h
          exact ⟨earlier, left, rest, hsuffix.trans (List.suffix_cons c cs), hleft⟩
      | some found =>
          obtain ⟨b, rest⟩ := found
          rw [hread] at h
          obtain rfl : b = a := Option.some.inj h
          exact ⟨before, c :: cs, rest, List.suffix_refl _, hread⟩

theorem scan_skip (place : Nat) (s rest : List Char) :
    scan read s.length place before (s ++ rest) =
      scan read 0 (place + s.length) (behind before s) rest := by
  induction s generalizing before place with
  | nil => rfl
  | cons c s ih =>
      simp only [List.cons_append, List.length_cons, scan, behind]
      rw [ih]
      congr 1
      omega

theorem scan_of_read {s rest : List Char} {a : α} (place : Nat) (hne : s ≠ [])
    (h : read before (s ++ rest) = some (a, rest)) :
    scan read 0 place before (s ++ rest) =
      (place, a) :: scan read 0 (place + s.length) (behind before s) rest := by
  cases s with
  | nil => exact absurd rfl hne
  | cons c s =>
      simp only [List.cons_append] at h
      simp only [List.cons_append, scan, h, behind, List.length_append, Nat.add_sub_cancel,
        List.length_cons]
      rw [scan_skip]
      congr 2
      omega

end

end SchemaDiagram.Text
