import Mathlib.Algebra.Order.Field.Power
import Mathlib.Tactic.FieldSimp
import Mathlib.Tactic.Linarith
import Mathlib.Tactic.NormNum
import Mathlib.Tactic.Positivity
import Mathlib.Tactic.Push
import Mathlib.Tactic.Ring
import SchemaDiagram.Decimal.Binary64

/-!
Which fractions round to a binary number. Fractions and powers are taken as rational numbers, so that
exponents of either sign read the same.
-/

namespace SchemaDiagram

theorem zpow_eq_div (b : ℚ) (e : ℤ) : b ^ e = b ^ e.toNat / b ^ (-e).toNat := by
  rcases le_total 0 e with h | h
  · have hneg : (-e).toNat = 0 := by omega
    rw [hneg, pow_zero, div_one, ← zpow_natCast, Int.toNat_of_nonneg h]
  · have hpos : e.toNat = 0 := by omega
    have he : -((-e).toNat : ℤ) = e := by omega
    rw [hpos, pow_zero, one_div, ← zpow_natCast, ← zpow_neg, he]

theorem two_zpow_pos (e : ℤ) : (0 : ℚ) < 2 ^ e :=
  zpow_pos (by norm_num) e

theorem two_zpow_add (m : ℕ) (e : ℤ) : (2 : ℚ) ^ (e + m) = 2 ^ m * 2 ^ e := by
  rw [zpow_add₀ (by norm_num), zpow_natCast, mul_comm]

theorem two_zpow_le {e f : ℤ} (h : e ≤ f) : (2 : ℚ) ^ e ≤ 2 ^ f :=
  zpow_le_zpow_right₀ (by norm_num) h

theorem lt_of_two_zpow_lt {e f : ℤ} (h : (2 : ℚ) ^ e < 2 ^ f) : e < f := by
  by_contra hle
  exact absurd h (not_lt.2 (two_zpow_le (not_lt.1 hle)))

namespace Binary64

structure Normalized (m : ℕ) (e : ℤ) : Prop where
  bits : m < 2 ^ 53
  least : -1074 ≤ e
  greatest : e ≤ 971
  full : 2 ^ 52 ≤ m ∨ e = -1074

def Canonical : Binary64 → Prop
  | .finite _ m e => Normalized m e
  | _ => True

theorem normalized_zero : Normalized 0 (-1074) :=
  ⟨by norm_num, le_rfl, by norm_num, .inr rfl⟩

theorem le_roundDiv {n d k : ℕ} (h : k ≤ n / d) : k ≤ roundDiv n d := by
  rw [roundDiv]
  split
  · exact h
  · omega
  · split <;> omega

theorem roundDiv_le {n d k : ℕ} (h : n / d < k) : roundDiv n d ≤ k := by
  rw [roundDiv]
  split
  · omega
  · omega
  · split <;> omega

theorem roundDiv_eq {n d k : ℕ} (hd : 0 < d) (hlow : 2 * k * d ≤ 2 * n + d)
    (hhigh : 2 * n ≤ 2 * k * d + d)
    (hodd : k % 2 = 1 → 2 * k * d < 2 * n + d ∧ 2 * n < 2 * k * d + d) : roundDiv n d = k := by
  -- An odd quotient has no fraction that is half way to it.
  have hn : d * (n / d) + n % d = n := Nat.div_add_mod n d
  have hr : n % d < d := Nat.mod_lt n hd
  have hcomm : 2 * k * d = 2 * (d * k) := by ring
  rw [hcomm] at hlow hhigh hodd
  have hcases : k = n / d ∨ k = n / d + 1 := by
    rcases lt_trichotomy k (n / d) with h | h | h
    · have hstep := Nat.mul_le_mul_left d (show k + 1 ≤ n / d from h)
      rw [Nat.mul_succ] at hstep
      omega
    · exact .inl h
    · rcases Nat.lt_or_eq_of_le (show n / d + 1 ≤ k from h) with h | h
      · have hstep := Nat.mul_le_mul_left d (show n / d + 2 ≤ k from h)
        rw [Nat.mul_add] at hstep
        omega
      · exact .inr h.symm
  rw [roundDiv]
  rcases hcases with rfl | rfl
  · split
    · rfl
    · next hgt =>
        have := Nat.compare_eq_gt.1 hgt
        omega
    · next heq =>
        have := Nat.compare_eq_eq.1 heq
        rw [if_pos (by omega)]
  · rw [Nat.mul_succ] at hlow hhigh hodd
    split
    · next hlt =>
        have := Nat.compare_eq_lt.1 hlt
        omega
    · rfl
    · next heq =>
        have := Nat.compare_eq_eq.1 heq
        rw [if_neg (by omega)]

theorem scaled_pos (num : ℕ) {den : ℕ} (hden : 0 < den) (e : ℤ) : 0 < (scaled num den e).2 :=
  Nat.mul_pos hden (Nat.pow_pos (by decide))

theorem scaled_div (num den : ℕ) (e : ℤ) :
    ((scaled num den e).1 : ℚ) / (scaled num den e).2 = num / den / 2 ^ e := by
  change ((num * 2 ^ (-e).toNat : ℕ) : ℚ) / (den * 2 ^ e.toNat : ℕ) = _
  rw [zpow_eq_div 2 e]
  push_cast
  field_simp

theorem two_zpow_log2_le {num den : ℕ} (hnum : 0 < num) (hden : 0 < den) :
    (2 : ℚ) ^ ((num.log2 : ℤ) - den.log2 - 1) ≤ num / den := by
  have hn : (2 : ℚ) ^ num.log2 ≤ num := by exact_mod_cast Nat.log2_self_le hnum.ne'
  have hd : (den : ℚ) ≤ 2 ^ (den.log2 + 1) := by exact_mod_cast Nat.lt_log2_self.le
  have hpos : (0 : ℚ) < den := by exact_mod_cast hden
  rw [le_div_iff₀ hpos]
  calc (2 : ℚ) ^ ((num.log2 : ℤ) - den.log2 - 1) * den
      ≤ 2 ^ ((num.log2 : ℤ) - den.log2 - 1) * 2 ^ (den.log2 + 1) :=
        mul_le_mul_of_nonneg_left hd (two_zpow_pos _).le
    _ = 2 ^ num.log2 := by
        rw [← zpow_natCast, ← zpow_natCast, ← zpow_add₀ (by norm_num)]
        congr 1
        push_cast
        ring
    _ ≤ num := hn

theorem lt_two_zpow_log2 (num : ℕ) {den : ℕ} (hden : 0 < den) :
    (num : ℚ) / den < 2 ^ ((num.log2 : ℤ) - den.log2 + 1) := by
  have hn : (num : ℚ) < 2 ^ (num.log2 + 1) := by exact_mod_cast Nat.lt_log2_self
  have hd : (2 : ℚ) ^ den.log2 ≤ den := by exact_mod_cast Nat.log2_self_le hden.ne'
  have hpos : (0 : ℚ) < den := by exact_mod_cast hden
  rw [div_lt_iff₀ hpos]
  calc (num : ℚ) < 2 ^ (num.log2 + 1) := hn
    _ = 2 ^ ((num.log2 : ℤ) - den.log2 + 1) * 2 ^ den.log2 := by
        rw [← zpow_natCast, ← zpow_natCast, ← zpow_add₀ (by norm_num)]
        congr 1
        push_cast
        ring
    _ ≤ 2 ^ ((num.log2 : ℤ) - den.log2 + 1) * den :=
        mul_le_mul_of_nonneg_left hd (two_zpow_pos _).le

structure FitsExponent (x : ℚ) (e : ℤ) : Prop where
  least : -1074 ≤ e
  below : x < 2 ^ (e + 53)
  above : e = -1074 ∨ 2 ^ (e + 52) ≤ x

theorem scaled_quotient_lt (num : ℕ) {den : ℕ} (hden : 0 < den) (e : ℤ) (k : ℕ) :
    (scaled num den e).1 / (scaled num den e).2 < 2 ^ k ↔ (num : ℚ) / den < 2 ^ (e + k) := by
  have hpos : (0 : ℚ) < (scaled num den e).2 := by exact_mod_cast scaled_pos num hden e
  rw [Nat.div_lt_iff_lt_mul (scaled_pos num hden e), two_zpow_add, ← div_lt_iff₀ (two_zpow_pos e),
    ← scaled_div, div_lt_iff₀ hpos]
  exact_mod_cast Iff.rfl

theorem fitsExponent_exponentFor {num den : ℕ} (hnum : 0 < num) (hden : 0 < den) :
    FitsExponent (num / den) (exponentFor num den) := by
  have hlow := two_zpow_log2_le hnum hden
  have hhigh := lt_two_zpow_log2 num hden
  generalize hguess : max (-1074 : ℤ) (num.log2 - den.log2 - 53) = guess
  have he : exponentFor num den =
      if (scaled num den guess).1 / (scaled num den guess).2 < 2 ^ 53 then guess
      else guess + 1 := by
    subst hguess
    rfl
  have hbits := scaled_quotient_lt num hden guess 53
  rw [he]
  split
  · next hfits =>
      refine ⟨by omega, by exact_mod_cast hbits.1 hfits, ?_⟩
      rcases max_choice (-1074 : ℤ) (num.log2 - den.log2 - 53) with h | h
      · exact .inl (by omega)
      · exact .inr (le_trans (two_zpow_le (by omega)) hlow)
  · next hfits =>
      refine ⟨by omega, hhigh.trans_le (two_zpow_le (by omega)), .inr ?_⟩
      have hge := not_lt.1 fun h => hfits (hbits.2 h)
      have hexponent : guess + 1 + 52 = guess + (53 : ℕ) := by push_cast; ring
      rw [hexponent]
      exact hge

theorem ofRatio_of_ne {num den m : ℕ} {e : ℤ} (negative : Bool) (hnum : num ≠ 0)
    (he : exponentFor num den = e) (hm : roundDiv (scaled num den e).1 (scaled num den e).2 = m)
    (hne : m ≠ 2 ^ 53) :
    ofRatio negative num den = if 971 < e then .infinite negative else .finite negative m e := by
  subst he hm
  have hcarry : ¬ roundDiv (scaled num den (exponentFor num den)).1
      (scaled num den (exponentFor num den)).2 = Nat.pow 2 53 := hne
  simp only [ofRatio, if_neg hnum, if_neg hcarry]

theorem ofRatio_of_carry {num den : ℕ} {e : ℤ} (negative : Bool) (hnum : num ≠ 0)
    (he : exponentFor num den = e)
    (hm : roundDiv (scaled num den e).1 (scaled num den e).2 = 2 ^ 53) :
    ofRatio negative num den =
      if 971 < e + 1 then .infinite negative else .finite negative (2 ^ 52) (e + 1) := by
  subst he
  have hcarry : roundDiv (scaled num den (exponentFor num den)).1
      (scaled num den (exponentFor num den)).2 = Nat.pow 2 53 := hm
  simp only [ofRatio, if_neg hnum, if_pos hcarry]
  rfl

theorem canonical_ofRatio (negative : Bool) (num : ℕ) {den : ℕ} (hden : 0 < den) :
    (ofRatio negative num den).Canonical := by
  by_cases hnum : num = 0
  · rw [ofRatio, if_pos hnum]
    exact normalized_zero
  · have hfits := fitsExponent_exponentFor (Nat.pos_of_ne_zero hnum) hden
    generalize he : exponentFor num den = e at hfits
    obtain ⟨hleast, hbelow, habove⟩ := hfits
    generalize hm : roundDiv (scaled num den e).1 (scaled num den e).2 = m
    have hle : m ≤ 2 ^ 53 :=
      hm ▸ roundDiv_le ((scaled_quotient_lt num hden e 53).2 (by exact_mod_cast hbelow))
    have hfull : 2 ^ 52 ≤ m ∨ e = -1074 := by
      rcases habove with h | h
      · exact .inr h
      · refine .inl (hm ▸ le_roundDiv (not_lt.1 fun hlt => ?_))
        have hquotient := (scaled_quotient_lt num hden e 52).1 hlt
        exact absurd h (not_le.2 (by exact_mod_cast hquotient))
    by_cases hcarry : m = 2 ^ 53
    · rw [ofRatio_of_carry negative hnum he (hm.trans hcarry)]
      split
      · trivial
      · exact ⟨by norm_num, by omega, by omega, .inl le_rfl⟩
    · rw [ofRatio_of_ne negative hnum he hm hcarry]
      split
      · trivial
      · exact ⟨by omega, hleast, by omega, hfull⟩

theorem canonical_ofDecimal (negative : Bool) (digits : ℕ) (exponent : ℤ) :
    (ofDecimal negative digits exponent).Canonical := by
  simp only [ofDecimal]
  split_ifs
  · exact normalized_zero
  · trivial
  · exact normalized_zero
  · exact canonical_ofRatio negative _ (Nat.pow_pos (by decide))

/-- The fractions from half way to the next number below, which is nearer under a power of two, up
to half way to the next one above. The ends belong to even mantissas. -/
structure Rounds (m : ℕ) (e : ℤ) (x : ℚ) : Prop where
  low : (m - 1 / 2) * 2 ^ e ≤ x
  power : m = 2 ^ 52 → -1074 < e → (m - 1 / 4) * 2 ^ e ≤ x
  high : x ≤ (m + 1 / 2) * 2 ^ e
  odd : m % 2 = 1 → (m - 1 / 2) * 2 ^ e < x ∧ x < (m + 1 / 2) * 2 ^ e

theorem roundDiv_scaled (num : ℕ) {den k : ℕ} {e : ℤ} (hden : 0 < den)
    (hlow : (k - 1 / 2) * (2 : ℚ) ^ e ≤ num / den) (hhigh : (num : ℚ) / den ≤ (k + 1 / 2) * 2 ^ e)
    (hodd : k % 2 = 1 →
      (k - 1 / 2) * (2 : ℚ) ^ e < num / den ∧ (num : ℚ) / den < (k + 1 / 2) * 2 ^ e) :
    roundDiv (scaled num den e).1 (scaled num den e).2 = k := by
  have hpos := scaled_pos num hden e
  have hposq : (0 : ℚ) < (scaled num den e).2 := by exact_mod_cast hpos
  have hquotient := scaled_div num den e
  generalize (scaled num den e).1 = n at hquotient ⊢
  generalize (scaled num den e).2 = d at hquotient hpos hposq ⊢
  have hx : (num : ℚ) / den = n / d * 2 ^ e := by
    rw [hquotient, div_mul_cancel₀ _ (two_zpow_pos e).ne']
  rw [hx] at hlow hhigh hodd
  simp only [mul_le_mul_iff_left₀ (two_zpow_pos e), mul_lt_mul_iff_left₀ (two_zpow_pos e),
    le_div_iff₀ hposq, div_le_iff₀ hposq, lt_div_iff₀ hposq, div_lt_iff₀ hposq] at hlow hhigh hodd
  refine roundDiv_eq hpos ?_ ?_ fun h => ⟨?_, ?_⟩
  · have : (2 * k * d : ℚ) ≤ 2 * n + d := by linarith
    exact_mod_cast this
  · have : (2 * n : ℚ) ≤ 2 * k * d + d := by linarith
    exact_mod_cast this
  · have : (2 * k * d : ℚ) < 2 * n + d := by linarith [(hodd h).1]
    exact_mod_cast this
  · have : (2 * n : ℚ) < 2 * k * d + d := by linarith [(hodd h).2]
    exact_mod_cast this

theorem FitsExponent.unique {x : ℚ} {e f : ℤ} (he : FitsExponent x e) (hf : FitsExponent x f) :
    e = f := by
  have hstep : ∀ {e f : ℤ}, FitsExponent x e → FitsExponent x f → e ≤ f := by
    intro e f he hf
    rcases he.above with h | h
    · have := hf.least
      omega
    · have := lt_of_two_zpow_lt (h.trans_lt hf.below)
      omega
  exact le_antisymm (hstep he hf) (hstep hf he)

theorem Rounds.below {m : ℕ} {e : ℤ} {x : ℚ} (hn : Normalized m e) (h : Rounds m e x) :
    x < 2 ^ (e + 53) := by
  have hpos := two_zpow_pos e
  have hexponent : (2 : ℚ) ^ (e + 53) = 2 ^ 53 * 2 ^ e := two_zpow_add 53 e
  rw [hexponent]
  rcases Nat.lt_or_eq_of_le (show m + 1 ≤ 2 ^ 53 from hn.bits) with hlt | heq
  · have hm : (m : ℚ) + 2 ≤ 2 ^ 53 := by exact_mod_cast hlt
    calc x ≤ (m + 1 / 2) * 2 ^ e := h.high
      _ < 2 ^ 53 * 2 ^ e := mul_lt_mul_of_pos_right (by linarith) hpos
  · have hm : (m : ℚ) + 1 = 2 ^ 53 := by exact_mod_cast heq
    calc x < (m + 1 / 2) * 2 ^ e := (h.odd (by omega)).2
      _ < 2 ^ 53 * 2 ^ e := mul_lt_mul_of_pos_right (by linarith) hpos

theorem ofRatio_of_rounds {num den m : ℕ} {e : ℤ} (negative : Bool) (hnum : 0 < num)
    (hden : 0 < den) (hn : Normalized m e) (h : Rounds m e (num / den)) :
    ofRatio negative num den = .finite negative m e := by
  have hfits := fitsExponent_exponentFor hnum hden
  have hbelow := h.below hn
  have hpos := two_zpow_pos e
  by_cases hcase : e = -1074 ∨ (2 : ℚ) ^ (e + 52) ≤ num / den
  · have he : exponentFor num den = e := hfits.unique ⟨hn.least, hbelow, hcase⟩
    have hm := roundDiv_scaled num hden h.low h.high h.odd
    have hbits := hn.bits
    have hgreatest := hn.greatest
    rw [ofRatio_of_ne negative hnum.ne' he hm (by omega), if_neg (by omega)]
  · -- Just under a power of two the exponent is one less, and rounding carries over.
    rw [not_or, not_le] at hcase
    obtain ⟨hne, hunder⟩ := hcase
    have hleast := hn.least
    have hgreatest := hn.greatest
    have hexponent : (2 : ℚ) ^ (e + 52) = 2 ^ 52 * 2 ^ e := two_zpow_add 52 e
    have hhalf : (2 : ℚ) ^ e = 2 * 2 ^ (e - 1) := by
      have := two_zpow_add 1 (e - 1)
      simpa using this
    have hm : m = 2 ^ 52 := by
      have hfull : 2 ^ 52 ≤ m := hn.full.resolve_right hne
      rcases Nat.lt_or_eq_of_le hfull with hlt | heq
      · exfalso
        have hlarge : (2 : ℚ) ^ 52 + 1 ≤ m := by exact_mod_cast hlt
        have hlow := h.low
        have : (2 : ℚ) ^ 52 * 2 ^ e ≤ (m - 1 / 2) * 2 ^ e :=
          mul_le_mul_of_nonneg_right (by linarith) hpos.le
        linarith
      · exact heq.symm
    subst hm
    have hpower := h.power rfl (by omega)
    push_cast at hpower
    rw [hexponent] at hunder
    rw [hhalf] at hunder hpower
    have hposhalf := two_zpow_pos (e - 1)
    have he : exponentFor num den = e - 1 := by
      refine hfits.unique ⟨by omega, ?_, .inr ?_⟩
      · have hsame : (2 : ℚ) ^ (e - 1 + 53) = 2 ^ 53 * 2 ^ (e - 1) := two_zpow_add 53 (e - 1)
        rw [hsame]
        linarith
      · have hsame : (2 : ℚ) ^ (e - 1 + 52) = 2 ^ 52 * 2 ^ (e - 1) := two_zpow_add 52 (e - 1)
        rw [hsame]
        linarith
    have hround := roundDiv_scaled num (k := 2 ^ 53) (e := e - 1) hden
      (by push_cast; linarith) (by push_cast; linarith) (fun hodd => absurd hodd (by norm_num))
    have hback : e - 1 + 1 = e := by ring
    rw [ofRatio_of_carry negative hnum.ne' he hround, hback, if_neg (by omega)]

end Binary64

end SchemaDiagram
