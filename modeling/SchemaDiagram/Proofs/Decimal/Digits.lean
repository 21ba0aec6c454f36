import Mathlib.Tactic.IntervalCases
import SchemaDiagram.Decimal.Numeral
import SchemaDiagram.Decimal.Text

namespace SchemaDiagram

def EndsDigits (rest : List Char) : Prop :=
  ∀ c ∈ rest.head?, c.isDigit = false

theorem endsDigits_cons {c : Char} (h : c.isDigit = false) (rest : List Char) :
    EndsDigits (c :: rest) := by
  intro d hd
  obtain rfl : c = d := by simpa using hd
  exact h

theorem takeWhile_digits {run rest : List Char} (hrun : ∀ c ∈ run, c.isDigit = true)
    (hend : EndsDigits rest) : (run ++ rest).takeWhile Char.isDigit = run := by
  rw [List.takeWhile_append_of_pos hrun]
  cases rest with
  | nil => simp
  | cons c rest => simp [hend c rfl]

theorem dropWhile_digits {run rest : List Char} (hrun : ∀ c ∈ run, c.isDigit = true)
    (hend : EndsDigits rest) : (run ++ rest).dropWhile Char.isDigit = rest := by
  rw [List.dropWhile_append_of_pos hrun]
  cases rest with
  | nil => rfl
  | cons c rest => simp [hend c rfl]

theorem isDigit_zeros {n : Nat} {c : Char} (h : c ∈ List.replicate n '0') : c.isDigit = true := by
  rw [List.eq_of_mem_replicate h]
  rfl

namespace Numeral

theorem digitsValue_eq (cs : List Char) : digitsValue 10 cs = Nat.ofDigitChars 10 cs 0 := by
  have hstep : (fun (n : Nat) (c : Char) => n * 10 + (c.toNat - 0x30)) =
      fun n c => 10 * n + (c.toNat - '0'.toNat) := by
    funext n c
    rw [Nat.mul_comm]
    rfl
  rw [digitsValue, hstep, Nat.ofDigitChars_eq_foldl]

theorem digitsValue_zeros_append (n : Nat) (cs : List Char) :
    digitsValue 10 (List.replicate n '0' ++ cs) = digitsValue 10 cs := by
  rw [digitsValue_eq, digitsValue_eq, Nat.ofDigitChars_append, Nat.ofDigitChars_replicate_zero,
    Nat.mul_zero]

theorem digitsValue_append_zeros (cs : List Char) (n : Nat) :
    digitsValue 10 (cs ++ List.replicate n '0') = digitsValue 10 cs * 10 ^ n := by
  rw [digitsValue_eq, digitsValue_eq, Nat.ofDigitChars_append, Nat.ofDigitChars_replicate_zero,
    Nat.mul_comm]

end Numeral

theorem digitsValue_natText (n : Nat) : Numeral.digitsValue 10 (natText n) = n := by
  rw [Numeral.digitsValue_eq, natText, Nat.ofDigitChars_ten_toDigits]

theorem isDigit_of_mem_natText {n : Nat} {c : Char} (h : c ∈ natText n) : c.isDigit = true :=
  Nat.isDigit_of_mem_toDigits (by decide) (by decide) h

theorem natText_ne_nil (n : Nat) : natText n ≠ [] :=
  Nat.toDigits_ne_nil

theorem natText_zero : natText 0 = ['0'] :=
  Nat.toDigits_zero 10

theorem head_natText_ne_zero {n : Nat} (hn : 0 < n) : (natText n).head? ≠ some '0' := by
  induction n using Nat.strongRecOn with
  | ind n ih =>
      rw [natText]
      by_cases hsmall : n < 10
      · rw [Nat.toDigits_of_lt_base hsmall]
        interval_cases n <;> decide
      · have hquotient : 0 < n / 10 := by omega
        have hfirst := ih (n / 10) (by omega) hquotient
        rw [Nat.toDigits_of_base_le (by decide) (by omega), List.head?_append]
        cases hhead : (Nat.toDigits 10 (n / 10)).head? with
        | none => exact absurd (List.head?_eq_none_iff.1 hhead) (natText_ne_nil (n / 10))
        | some c =>
            rw [natText, hhead] at hfirst
            exact hfirst

end SchemaDiagram
