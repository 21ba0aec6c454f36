import Mathlib.Data.Nat.Digits.Defs
import SchemaDiagram.Proofs.Decimal.Digits

namespace SchemaDiagram

open Numeral

theorem append_lt_append {xs ys : List Char} (hlength : xs.length = ys.length) (h : xs < ys)
    (as bs : List Char) : xs ++ as < ys ++ bs := by
  induction xs generalizing ys with
  | nil =>
      obtain rfl := List.length_eq_zero_iff.1 hlength.symm
      exact absurd h (List.lt_irrefl [])
  | cons x xs ih =>
      cases ys with
      | nil => exact absurd hlength (by simp)
      | cons y ys =>
          rw [List.cons_append, List.cons_append, List.cons_lt_cons_iff]
          rcases List.cons_lt_cons_iff.1 h with hhead | ⟨rfl, htail⟩
          · exact .inl hhead
          · exact .inr ⟨rfl, ih (Nat.succ.inj hlength) htail⟩

theorem digitsValue_cons (c : Char) (cs : List Char) :
    digitsValue 10 (c :: cs) = 10 ^ cs.length * (c.toNat - '0'.toNat) + digitsValue 10 cs := by
  rw [digitsValue_eq, digitsValue_eq, Nat.ofDigitChars_cons, Nat.ofDigitChars_eq_ofDigitChars_zero,
    Nat.mul_zero, Nat.zero_add]

theorem digit_bounds {c : Char} (h : c.isDigit = true) :
    '0'.toNat ≤ c.toNat ∧ c.toNat ≤ '9'.toNat := by
  simpa [Char.isDigit, UInt32.le_iff_toNat_le] using h

theorem digitsValue_lt {cs : List Char} (h : ∀ c ∈ cs, c.isDigit = true) :
    digitsValue 10 cs < 10 ^ cs.length := by
  induction cs with
  | nil => exact Nat.one_pos
  | cons c cs ih =>
      have hrest := ih fun d hd => h d (List.mem_cons_of_mem _ hd)
      have hdigit : c.toNat - '0'.toNat ≤ 9 := by
        have hbounds := (digit_bounds (h c (by simp))).2
        exact Nat.sub_le_of_le_add hbounds
      have hleading := Nat.mul_le_mul_left (10 ^ cs.length) hdigit
      rw [digitsValue_cons, List.length_cons, Nat.pow_succ]
      omega

theorem length_natText_le {cs : List Char} (hne : cs ≠ []) (h : ∀ c ∈ cs, c.isDigit = true) :
    (natText (digitsValue 10 cs)).length ≤ cs.length :=
  Nat.toDigits_length 10 _ _ (List.length_pos_iff.2 hne) (digitsValue_lt h)

theorem lt_of_digitsValue_lt {xs ys : List Char} (hx : ∀ c ∈ xs, c.isDigit = true)
    (hy : ∀ c ∈ ys, c.isDigit = true) (hlength : xs.length = ys.length)
    (h : digitsValue 10 xs < digitsValue 10 ys) : xs < ys := by
  induction xs generalizing ys with
  | nil =>
      obtain rfl := List.length_eq_zero_iff.1 hlength.symm
      exact absurd h (Nat.lt_irrefl _)
  | cons x xs ih =>
      cases ys with
      | nil => exact absurd hlength (by simp)
      | cons y ys =>
          have hrests : xs.length = ys.length := Nat.succ.inj hlength
          have hfirst := (digit_bounds (hx x (by simp))).1
          have hsecond := (digit_bounds (hy y (by simp))).1
          rw [digitsValue_cons, digitsValue_cons, hrests] at h
          rw [List.cons_lt_cons_iff]
          -- The first digits decide unless they are the same one.
          rcases Nat.lt_trichotomy x.toNat y.toNat with hless | hsame | hmore
          · exact .inl hless
          · obtain rfl := Char.toNat_inj.1 hsame
            refine .inr ⟨rfl, ih (fun c hc => hx c (List.mem_cons_of_mem _ hc))
              (fun c hc => hy c (List.mem_cons_of_mem _ hc)) hrests ?_⟩
            omega
          · have hrest := digitsValue_lt fun c hc => hy c (List.mem_cons_of_mem _ hc)
            have hleading : 10 ^ ys.length * (y.toNat - '0'.toNat + 1) ≤
                10 ^ ys.length * (x.toNat - '0'.toNat) := Nat.mul_le_mul_left _ (by omega)
            rw [Nat.mul_add, Nat.mul_one] at hleading
            omega

end SchemaDiagram
