import SchemaDiagram.Proofs.Decimal.Rounding

/-!
Fractions too large for a binary number: those from half way between the greatest number and the next
power of two on.
-/

namespace SchemaDiagram.Binary64

def overflowBound : ℕ :=
  (2 ^ 54 - 1) * 2 ^ 970

def isInfinite : Binary64 → Bool
  | .infinite _ => true
  | _ => false

theorem le_roundDiv_iff {n d k : ℕ} (hd : 0 < d) (heven : k % 2 = 0) :
    k ≤ roundDiv n d ↔ 2 * k * d ≤ 2 * n + d := by
  -- Half way below an even integer a quotient is rounded up to it.
  have hn : d * (n / d) + n % d = n := Nat.div_add_mod n d
  have hr : n % d < d := Nat.mod_lt n hd
  have hcomm : 2 * k * d = 2 * (d * k) := by ring
  rw [hcomm]
  rcases Nat.lt_trichotomy (n / d + 1) k with hlt | rfl | hgt
  · have hstep := Nat.mul_le_mul_left d (show n / d + 2 ≤ k from hlt)
    rw [Nat.mul_add] at hstep
    have hbelow : roundDiv n d ≤ n / d + 1 := roundDiv_le (Nat.lt_succ_self _)
    omega
  · rw [Nat.mul_succ, roundDiv]
    split
    · next hless =>
        have := Nat.compare_eq_lt.1 hless
        omega
    · next hmore =>
        have := Nat.compare_eq_gt.1 hmore
        omega
    · next heq =>
        have := Nat.compare_eq_eq.1 heq
        rw [if_neg (by omega)]
        omega
  · have hle : k ≤ n / d := Nat.le_of_lt_succ hgt
    have hstep := Nat.mul_le_mul_left d hle
    have habove : k ≤ roundDiv n d := le_roundDiv hle
    omega

theorem two_zpow_971 : (2 : ℚ) ^ (971 : ℤ) = 2 * 2 ^ 970 := by
  rw [show (971 : ℤ) = (970 : ℕ) + 1 by norm_num, zpow_add₀ (by norm_num), zpow_natCast, zpow_one,
    mul_comm]

theorem overflowBound_cast : (overflowBound : ℚ) = (2 ^ 53 - 1 / 2) * 2 ^ (971 : ℤ) := by
  have hbound : (overflowBound : ℚ) = (2 ^ 54 - 1) * 2 ^ 970 := by
    rw [overflowBound, Nat.cast_mul, Nat.cast_pow, Nat.cast_sub (by norm_num)]
    norm_num
  rw [hbound, two_zpow_971]
  generalize (2 : ℚ) ^ 970 = unit
  ring

theorem carries_iff {num den : ℕ} (hden : 0 < den) :
    2 ^ 53 ≤ roundDiv (scaled num den 971).1 (scaled num den 971).2 ↔
      (overflowBound : ℚ) ≤ num / den := by
  have hpos := scaled_pos num hden 971
  have hposq : (0 : ℚ) < (scaled num den 971).2 := by exact_mod_cast hpos
  have hquotient := scaled_div num den 971
  have hx : (num : ℚ) / den = (scaled num den 971).1 / (scaled num den 971).2 * 2 ^ (971 : ℤ) := by
    rw [hquotient, div_mul_cancel₀ _ (two_zpow_pos 971).ne']
  rw [hx, overflowBound_cast, mul_le_mul_iff_left₀ (two_zpow_pos 971), le_div_iff₀ hposq,
    le_roundDiv_iff hpos (by norm_num)]
  generalize (scaled num den 971).1 = n
  generalize (scaled num den 971).2 = d
  rw [← Nat.cast_le (α := ℚ)]
  push_cast
  constructor <;> intro h <;> linarith

theorem isInfinite_ofRatio {num den m : ℕ} {e : ℤ} (negative : Bool) (hnum : num ≠ 0)
    (he : exponentFor num den = e)
    (hm : roundDiv (scaled num den e).1 (scaled num den e).2 = m) :
    (ofRatio negative num den).isInfinite = true ↔ 971 < e ∨ e = 971 ∧ m = 2 ^ 53 := by
  by_cases hcarry : m = 2 ^ 53
  · rw [ofRatio_of_carry negative hnum he (hm.trans hcarry)]
    split
    · simp only [isInfinite, true_iff]
      omega
    · simp only [isInfinite, Bool.false_eq_true, false_iff]
      omega
  · rw [ofRatio_of_ne negative hnum he hm hcarry]
    split
    · next hlarge => simp [isInfinite, hlarge]
    · next hsmall => simp only [isInfinite, hsmall, hcarry, and_false, or_false, Bool.false_eq_true]

theorem isInfinite_ofRatio_iff (negative : Bool) {num den : ℕ} (hnum : 0 < num) (hden : 0 < den) :
    (ofRatio negative num den).isInfinite = true ↔ (overflowBound : ℚ) ≤ num / den := by
  have hfits := fitsExponent_exponentFor hnum hden
  have hunit := two_zpow_pos 971
  generalize he : exponentFor num den = e at hfits
  generalize hm : roundDiv (scaled num den e).1 (scaled num den e).2 = m
  rw [isInfinite_ofRatio negative hnum.ne' he hm]
  rcases lt_trichotomy e 971 with hless | rfl | hmore
  · have hpower : (2 : ℚ) ^ ((971 : ℤ) + (52 : ℕ)) = 2 ^ 52 * 2 ^ (971 : ℤ) := two_zpow_add 52 971
    have hbelow : (num : ℚ) / den < 2 ^ 52 * 2 ^ (971 : ℤ) :=
      hpower ▸ hfits.below.trans_le (two_zpow_le (by push_cast; omega))
    have hsmall : ¬ (overflowBound : ℚ) ≤ num / den := by
      rw [overflowBound_cast, not_le]
      exact hbelow.trans_le (mul_le_mul_of_nonneg_right (by norm_num) hunit.le)
    refine iff_of_false ?_ hsmall
    omega
  · have hquotient := (scaled_quotient_lt num hden 971 53).2 (by exact_mod_cast hfits.below)
    have hle : m ≤ 2 ^ 53 := hm ▸ roundDiv_le hquotient
    rw [← carries_iff hden, hm]
    omega
  · have hpower : (2 : ℚ) ^ ((971 : ℤ) + (53 : ℕ)) = 2 ^ 53 * 2 ^ (971 : ℤ) := two_zpow_add 53 971
    have habove : (2 : ℚ) ^ 53 * 2 ^ (971 : ℤ) ≤ num / den :=
      hpower ▸ (two_zpow_le (by push_cast; omega)).trans (hfits.above.resolve_left (by omega))
    have hlarge : (overflowBound : ℚ) ≤ num / den := by
      rw [overflowBound_cast]
      exact (mul_le_mul_of_nonneg_right (by norm_num) hunit.le).trans habove
    exact iff_of_true (.inl hmore) hlarge

theorem isInfinite_ofInt_iff (n : ℤ) : (ofInt n).isInfinite = true ↔ overflowBound ≤ n.natAbs := by
  rcases Nat.eq_zero_or_pos n.natAbs with hzero | hpos
  · have hbound : 0 < overflowBound := by
      rw [overflowBound]
      positivity
    rw [ofInt, hzero, ofRatio, if_pos rfl]
    simp only [isInfinite, Bool.false_eq_true, false_iff]
    omega
  · rw [ofInt, isInfinite_ofRatio_iff _ hpos Nat.one_pos, Nat.cast_one, div_one, Nat.cast_le]

end SchemaDiagram.Binary64
