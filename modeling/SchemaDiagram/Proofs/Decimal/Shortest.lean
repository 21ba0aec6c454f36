import Mathlib.Tactic.GCongr
import SchemaDiagram.Decimal.Text
import SchemaDiagram.Proofs.Decimal.Rounding

/-!
The shortest decimal of a number is one that rounds to it, so that every decimal of the same value is
read as the number.
-/

namespace SchemaDiagram

theorem ten_zpow_pos (e : ℤ) : (0 : ℚ) < 10 ^ e :=
  zpow_pos (by norm_num) e

theorem ten_pow_le_two_pow {k j : ℕ} (h : 10 * k ≤ 3 * j) : (10 : ℚ) ^ k ≤ 2 ^ j := by
  refine le_of_pow_le_pow_left₀ (n := 3) (by norm_num) (by positivity) ?_
  calc ((10 : ℚ) ^ k) ^ 3 = 1000 ^ k := by rw [← pow_mul, mul_comm, pow_mul]; norm_num
    _ ≤ 1024 ^ k := pow_le_pow_left₀ (by norm_num) (by norm_num) k
    _ = 2 ^ (10 * k) := by rw [pow_mul]; norm_num
    _ ≤ 2 ^ (3 * j) := pow_le_pow_right₀ (by norm_num) h
    _ = ((2 : ℚ) ^ j) ^ 3 := by rw [← pow_mul, mul_comm]

theorem two_pow_le_ten_pow {j k : ℕ} (h : 28 * j ≤ 93 * k) : (2 : ℚ) ^ j ≤ 10 ^ k := by
  refine le_of_pow_le_pow_left₀ (n := 28) (by norm_num) (by positivity) ?_
  calc ((2 : ℚ) ^ j) ^ 28 = 2 ^ (28 * j) := by rw [← pow_mul, mul_comm]
    _ ≤ 2 ^ (93 * k) := pow_le_pow_right₀ (by norm_num) h
    _ = (2 ^ 93) ^ k := by rw [pow_mul]
    _ ≤ (10 ^ 28) ^ k := pow_le_pow_left₀ (by norm_num) (by norm_num) k
    _ = ((10 : ℚ) ^ k) ^ 28 := by rw [← pow_mul, ← pow_mul, mul_comm]

theorem ten_zpow_le_two_zpow {x g : ℤ} (hlow : -1100 ≤ x) (hhigh : x ≤ 1100)
    (h : (g + 2) * 100000 ≤ x * 30103) : (10 : ℚ) ^ g ≤ 2 ^ (x - 1) := by
  rcases le_total 0 g with hg | hg
  · obtain ⟨k, rfl⟩ := Int.eq_ofNat_of_zero_le hg
    obtain ⟨j, hj⟩ := Int.eq_ofNat_of_zero_le (show 0 ≤ x - 1 by omega)
    rw [hj, zpow_natCast, zpow_natCast]
    exact ten_pow_le_two_pow (by omega)
  · obtain ⟨k, hk⟩ := Int.eq_ofNat_of_zero_le (show 0 ≤ -g by omega)
    obtain rfl : g = -k := by omega
    rcases le_total 1 x with hx | hx
    · have hone : (1 : ℚ) ≤ 2 ^ (x - 1) := one_le_zpow₀ (by norm_num) (by omega)
      refine le_trans ?_ hone
      rw [zpow_neg, zpow_natCast]
      exact inv_le_one_of_one_le₀ (one_le_pow₀ (by norm_num))
    · obtain ⟨j, hj⟩ := Int.eq_ofNat_of_zero_le (show 0 ≤ 1 - x by omega)
      have hexponent : x - 1 = -j := by omega
      rw [hexponent, zpow_neg, zpow_neg, zpow_natCast, zpow_natCast]
      exact inv_anti₀ (by positivity) (two_pow_le_ten_pow (by omega))

namespace Binary64

theorem le_decimal_iff {den : ℕ} (hden : 0 < den) (num digits : ℕ) (place : ℤ) :
    num * 10 ^ (-place).toNat ≤ digits * 10 ^ place.toNat * den ↔
      (num : ℚ) / den ≤ digits * 10 ^ place := by
  have hd : (0 : ℚ) < den := by exact_mod_cast hden
  rw [zpow_eq_div, div_le_iff₀ hd, ← mul_div_assoc, div_mul_eq_mul_div, le_div_iff₀ (by positivity)]
  exact_mod_cast Iff.rfl

theorem decimal_le_iff {den : ℕ} (hden : 0 < den) (num digits : ℕ) (place : ℤ) :
    digits * 10 ^ place.toNat * den ≤ num * 10 ^ (-place).toNat ↔
      (digits : ℚ) * 10 ^ place ≤ num / den := by
  have hd : (0 : ℚ) < den := by exact_mod_cast hden
  rw [zpow_eq_div, le_div_iff₀ hd, ← mul_div_assoc, div_mul_eq_mul_div, div_le_iff₀ (by positivity)]
  exact_mod_cast Iff.rfl

theorem lt_decimal_iff {den : ℕ} (hden : 0 < den) (num digits : ℕ) (place : ℤ) :
    num * 10 ^ (-place).toNat < digits * 10 ^ place.toNat * den ↔
      (num : ℚ) / den < digits * 10 ^ place := by
  rw [← not_le, ← not_le, decimal_le_iff hden]

theorem decimal_lt_iff {den : ℕ} (hden : 0 < den) (num digits : ℕ) (place : ℤ) :
    digits * 10 ^ place.toNat * den < num * 10 ^ (-place).toNat ↔
      (digits : ℚ) * 10 ^ place < num / den := by
  rw [← not_le, ← not_le, le_decimal_iff hden]

namespace Interval

structure Contains (i : Interval) (x : ℚ) : Prop where
  low : i.low / i.den ≤ x
  high : x ≤ i.high / i.den
  inside : i.closed = false → i.low / i.den < x ∧ x < i.high / i.den

theorem holds_iff {i : Interval} (hden : 0 < i.den) (digits : ℕ) (place : ℤ) :
    i.holds digits place = true ↔ i.Contains (digits * 10 ^ place) := by
  have hlow := le_decimal_iff hden i.low digits place
  have hhigh := decimal_le_iff hden i.high digits place
  have hlow' := lt_decimal_iff hden i.low digits place
  have hhigh' := decimal_lt_iff hden i.high digits place
  cases hclosed : i.closed with
  | true =>
      have heq : i.holds digits place = (decide (i.low * 10 ^ (-place).toNat ≤
          digits * 10 ^ place.toNat * i.den) && decide (digits * 10 ^ place.toNat * i.den ≤
          i.high * 10 ^ (-place).toNat)) := by
        rw [holds, hclosed]
        rfl
      rw [heq, Bool.and_eq_true, decide_eq_true_iff, decide_eq_true_iff, hlow, hhigh]
      exact ⟨fun h => ⟨h.1, h.2, fun hopen => by simp [hclosed] at hopen⟩, fun h => ⟨h.low, h.high⟩⟩
  | false =>
      have heq : i.holds digits place = (decide (i.low * 10 ^ (-place).toNat <
          digits * 10 ^ place.toNat * i.den) && decide (digits * 10 ^ place.toNat * i.den <
          i.high * 10 ^ (-place).toNat)) := by
        rw [holds, hclosed]
        rfl
      rw [heq, Bool.and_eq_true, decide_eq_true_iff, decide_eq_true_iff, hlow', hhigh']
      exact ⟨fun h => ⟨h.1.le, h.2.le, fun _ => h⟩, fun h => h.inside hclosed⟩

theorem holds_of_onGrid? {i : Interval} {place : ℤ} {digits : ℕ}
    (h : i.onGrid? place = some digits) : i.holds digits place = true := by
  simp only [onGrid?] at h
  split at h
  · simp at h
  · next hbelow _ =>
      obtain rfl := Option.some.inj h
      exact hbelow
  · next _ habove =>
      obtain rfl := Option.some.inj h
      exact habove
  · next hbelow habove =>
      split at h
      · obtain rfl := Option.some.inj h
        exact hbelow
      · obtain rfl := Option.some.inj h
        exact habove
      · split at h
        · obtain rfl := Option.some.inj h
          exact hbelow
        · obtain rfl := Option.some.inj h
          exact habove

structure Proper (i : Interval) : Prop where
  den : 0 < i.den
  low : i.low < i.mid
  high : i.mid < i.high

theorem onGrid?_eq_none {i : Interval} {place : ℤ} (h : i.onGrid? place = none) :
    ∃ below, i.mid * 10 ^ (-place).toNat / (i.den * 10 ^ place.toNat) = below ∧
      i.holds below place = false ∧ i.holds (below + 1) place = false := by
  refine ⟨_, rfl, ?_⟩
  simp only [onGrid?] at h
  split at h
  · next hbelow habove => exact ⟨hbelow, habove⟩
  · simp at h
  · simp at h
  · split at h
    · simp at h
    · simp at h
    · split at h <;> simp at h

theorem width_le_of_onGrid? {i : Interval} (hi : i.Proper) {place : ℤ}
    (h : i.onGrid? place = none) : (i.high : ℚ) / i.den - i.low / i.den ≤ 10 ^ place := by
  obtain ⟨hden, hlow, hhigh⟩ := hi
  have hd : (0 : ℚ) < i.den := by exact_mod_cast hden
  obtain ⟨below, hbelow, hmissed, hmissed'⟩ := onGrid?_eq_none h
  have hunder : (below : ℚ) * 10 ^ place ≤ i.mid / i.den := by
    rw [← decimal_le_iff hden, ← hbelow, mul_assoc, mul_comm (10 ^ place.toNat)]
    exact Nat.div_mul_le_self _ _
  have hover : (i.mid : ℚ) / i.den < (below + 1 : ℕ) * 10 ^ place := by
    rw [← lt_decimal_iff hden, ← hbelow, mul_assoc, mul_comm (10 ^ place.toNat),
      mul_comm (_ + 1)]
    exact Nat.lt_mul_div_succ _ (Nat.mul_pos hden (Nat.pow_pos (by decide)))
  have hlowmid : (i.low : ℚ) / i.den < i.mid / i.den := by gcongr
  have hmidhigh : (i.mid : ℚ) / i.den < i.high / i.den := by gcongr
  have hstep : ((below + 1 : ℕ) : ℚ) * 10 ^ place = below * 10 ^ place + 10 ^ place := by
    push_cast
    ring
  -- The multiples around the number lie at or outside the ends.
  have hleft : (below : ℚ) * 10 ^ place ≤ i.low / i.den := by
    by_contra hinside
    rw [not_le] at hinside
    have hholds : i.Contains (below * 10 ^ place) :=
      ⟨hinside.le, hunder.trans hmidhigh.le, fun _ => ⟨hinside, hunder.trans_lt hmidhigh⟩⟩
    rw [← holds_iff hden, hmissed] at hholds
    exact absurd hholds (by decide)
  have hright : (i.high : ℚ) / i.den ≤ (below + 1 : ℕ) * 10 ^ place := by
    by_contra hinside
    rw [not_le] at hinside
    have hholds : i.Contains ((below + 1 : ℕ) * 10 ^ place) :=
      ⟨(hlowmid.trans hover).le, hinside.le, fun _ => ⟨hlowmid.trans hover, hinside⟩⟩
    rw [← holds_iff hden, hmissed'] at hholds
    exact absurd hholds (by decide)
  linarith

theorem contains_refine {i : Interval} (hi : i.Proper) {tries : ℕ} {place : ℤ}
    (h : (10 : ℚ) ^ (place - tries) < i.high / i.den - i.low / i.den) :
    i.Contains ((i.refine (tries + 1) place).1 * 10 ^ (i.refine (tries + 1) place).2) := by
  induction tries generalizing place with
  | zero =>
      cases hgrid : i.onGrid? place with
      | none =>
          have hwide := width_le_of_onGrid? hi hgrid
          rw [Nat.cast_zero, sub_zero] at h
          exact absurd hwide (not_le.2 h)
      | some digits =>
          simp only [refine, hgrid]
          exact (holds_iff hi.den digits place).1 (holds_of_onGrid? hgrid)
  | succ tries ih =>
      cases hgrid : i.onGrid? place with
      | none =>
          rw [refine, hgrid]
          refine ih ?_
          have hplace : place - 1 - tries = place - (tries + 1 : ℕ) := by
            push_cast
            ring
          rw [hplace]
          exact h
      | some digits =>
          rw [refine, hgrid]
          exact (holds_iff hi.den digits place).1 (holds_of_onGrid? hgrid)

theorem fits_iff {i : Interval} (hden : 0 < i.den) (place : ℤ) :
    i.den * 10 ^ place.toNat ≤ i.mid * 10 ^ (-place).toNat ↔ (10 : ℚ) ^ place ≤ i.mid / i.den := by
  have h := decimal_le_iff hden i.mid 1 place
  rw [one_mul, Nat.cast_one, one_mul, mul_comm] at h
  exact h

theorem leadingPlace_le {i : Interval} (hi : i.Proper) (hleast : (2 : ℚ) ^ (-1075 : ℤ) ≤ i.mid / i.den)
    (hgreatest : (i.mid : ℚ) / i.den < 2 ^ (1024 : ℤ)) :
    (10 : ℚ) ^ i.leadingPlace ≤ i.mid / i.den := by
  have hmid : 0 < i.mid := lt_of_le_of_lt (Nat.zero_le _) hi.low
  have hlow := two_zpow_log2_le hmid hi.den
  have hhigh := lt_two_zpow_log2 i.mid hi.den
  have hleft := lt_of_two_zpow_lt (hleast.trans_lt hhigh)
  have hright := lt_of_two_zpow_lt (hlow.trans_lt hgreatest)
  have hfits : ∀ {p : ℤ}, decide (i.den * 10 ^ p.toNat ≤ i.mid * 10 ^ (-p).toNat) = true →
      (10 : ℚ) ^ p ≤ i.mid / i.den := fun h => (fits_iff hi.den _).1 (of_decide_eq_true h)
  simp only [leadingPlace]
  split_ifs with h4 h3 h2 h1
  · exact hfits h4
  · exact hfits h3
  · exact hfits h2
  · exact hfits h1
  · refine (ten_zpow_le_two_zpow ?_ ?_ ?_).trans hlow <;> omega

end Interval

section

variable {m : ℕ} {e : ℤ}

theorem interval_div (k m : ℕ) (e : ℤ) :
    ((k * (ratio 1 (e - 2)).1 : ℕ) : ℚ) / (interval m e).den = k / 4 * 2 ^ e := by
  change ((k * (1 * 2 ^ (e - 2).toNat) : ℕ) : ℚ) / ((2 ^ (-(e - 2)).toNat : ℕ) : ℚ) = _
  have hscale : (2 : ℚ) ^ e = 4 * 2 ^ (e - 2) := by
    have hsplit := two_zpow_add 2 (e - 2)
    norm_num at hsplit
    exact hsplit
  rw [hscale, zpow_eq_div 2 (e - 2)]
  push_cast
  ring

theorem mid_interval (m : ℕ) (e : ℤ) :
    ((interval m e).mid : ℚ) / (interval m e).den = m * 2 ^ e := by
  have hmid : (interval m e).mid = 4 * m * (ratio 1 (e - 2)).1 := rfl
  rw [hmid, interval_div]
  push_cast
  ring

theorem high_interval (m : ℕ) (e : ℤ) :
    ((interval m e).high : ℚ) / (interval m e).den = (m + 1 / 2) * 2 ^ e := by
  have hhigh : (interval m e).high = (4 * m + 2) * (ratio 1 (e - 2)).1 := rfl
  rw [hhigh, interval_div]
  push_cast
  ring

theorem low_interval_of_power (hpower : m = 2 ^ 52 ∧ -1074 < e) :
    ((interval m e).low : ℚ) / (interval m e).den = (m - 1 / 4) * 2 ^ e := by
  have hlow : (interval m e).low = (4 * m - 1) * (ratio 1 (e - 2)).1 := by
    have hcond : (decide (m = Nat.pow 2 52) && decide (-1074 < e)) = true := by
      rw [Bool.and_eq_true, decide_eq_true_iff, decide_eq_true_iff]
      exact hpower
    rw [interval]
    exact if_pos hcond
  rw [hlow, interval_div, Nat.cast_sub (by omega)]
  push_cast
  ring

theorem low_interval (hm : 0 < m) (hpower : ¬ (m = 2 ^ 52 ∧ -1074 < e)) :
    ((interval m e).low : ℚ) / (interval m e).den = (m - 1 / 2) * 2 ^ e := by
  have hlow : (interval m e).low = (4 * m - 2) * (ratio 1 (e - 2)).1 := by
    have hcond : ¬ (decide (m = Nat.pow 2 52) && decide (-1074 < e)) = true := by
      rw [Bool.and_eq_true, decide_eq_true_iff, decide_eq_true_iff]
      exact hpower
    rw [interval]
    exact if_neg hcond
  rw [hlow, interval_div, Nat.cast_sub (by omega)]
  push_cast
  ring

theorem proper_interval (hm : 0 < m) (e : ℤ) : (interval m e).Proper := by
  have hden : 0 < (interval m e).den := Nat.pow_pos (by decide)
  have hd : (0 : ℚ) < (interval m e).den := by exact_mod_cast hden
  have hpos := two_zpow_pos e
  have hmid := mid_interval m e
  have hhigh := high_interval m e
  refine ⟨hden, ?_, ?_⟩
  · have hlow : ((interval m e).low : ℚ) / (interval m e).den <
        (interval m e).mid / (interval m e).den := by
      by_cases hpower : m = 2 ^ 52 ∧ -1074 < e
      · rw [low_interval_of_power hpower, hmid]
        exact mul_lt_mul_of_pos_right (by linarith) hpos
      · rw [low_interval hm hpower, hmid]
        exact mul_lt_mul_of_pos_right (by linarith) hpos
    exact_mod_cast (div_lt_div_iff_of_pos_right hd).1 hlow
  · have hstep : ((interval m e).mid : ℚ) / (interval m e).den <
        (interval m e).high / (interval m e).den := by
      rw [hmid, hhigh]
      exact mul_lt_mul_of_pos_right (by linarith) hpos
    exact_mod_cast (div_lt_div_iff_of_pos_right hd).1 hstep

theorem Interval.Contains.rounds {x : ℚ} (hm : 0 < m) (h : (interval m e).Contains x) :
    Rounds m e x := by
  have hpos := two_zpow_pos e
  obtain ⟨hlow, hhigh, hinside⟩ := h
  rw [high_interval] at hhigh hinside
  by_cases hpower : m = 2 ^ 52 ∧ -1074 < e
  · rw [low_interval_of_power hpower] at hlow
    refine ⟨le_trans (mul_le_mul_of_nonneg_right (by linarith) hpos.le) hlow, fun _ _ => hlow,
      hhigh, fun hodd => ?_⟩
    rw [hpower.1] at hodd
    exact absurd hodd (by norm_num)
  · rw [low_interval hm hpower] at hlow hinside
    refine ⟨hlow, fun h h' => absurd ⟨h, h'⟩ hpower, hhigh, fun hodd => hinside ?_⟩
    exact decide_eq_false (by omega)

theorem two_zpow_le_value (hn : Normalized m e) (hm : 0 < m) :
    (2 : ℚ) ^ (-1075 : ℤ) ≤ m * 2 ^ e := by
  have hone : (1 : ℚ) ≤ m := by exact_mod_cast hm
  have hleast := hn.least
  calc (2 : ℚ) ^ (-1075 : ℤ) ≤ 2 ^ e := two_zpow_le (by omega)
    _ ≤ m * 2 ^ e := le_mul_of_one_le_left (two_zpow_pos e).le hone

theorem value_lt_two_zpow (hn : Normalized m e) : (m : ℚ) * 2 ^ e < 2 ^ (1024 : ℤ) := by
  have hbits : (m : ℚ) < 2 ^ 53 := by exact_mod_cast hn.bits
  have hgreatest := hn.greatest
  calc (m : ℚ) * 2 ^ e < 2 ^ 53 * 2 ^ e := mul_lt_mul_of_pos_right hbits (two_zpow_pos e)
    _ = 2 ^ (e + (53 : ℕ)) := (two_zpow_add 53 e).symm
    _ ≤ 2 ^ (1024 : ℤ) := two_zpow_le (by push_cast; omega)

theorem last_grid_lt_width (hn : Normalized m e) (hm : 0 < m) :
    (10 : ℚ) ^ ((interval m e).leadingPlace - (16 : ℕ)) <
      (interval m e).high / (interval m e).den - (interval m e).low / (interval m e).den := by
  have hpos := two_zpow_pos e
  have hproper := proper_interval hm e
  have hleading := Interval.leadingPlace_le hproper
    (by rw [mid_interval]; exact two_zpow_le_value hn hm)
    (by rw [mid_interval]; exact value_lt_two_zpow hn)
  have hbits : (m : ℚ) < 2 ^ 53 := by exact_mod_cast hn.bits
  have hgrid : (10 : ℚ) ^ ((interval m e).leadingPlace - (16 : ℕ)) ≤ m * 2 ^ e / 10 ^ 16 := by
    rw [zpow_sub₀ (by norm_num), zpow_natCast, ← mid_interval]
    gcongr
  rw [high_interval]
  by_cases hpower : m = 2 ^ 52 ∧ -1074 < e
  · rw [low_interval_of_power hpower]
    rw [hpower.1] at hgrid ⊢
    push_cast at hgrid ⊢
    linarith
  · rw [low_interval hm hpower]
    have hvalue := mul_lt_mul_of_pos_right hbits hpos
    linarith

theorem rounds_shortest (hn : Normalized m e) (hm : 0 < m) :
    Rounds m e ((shortest m e).1 * 10 ^ (shortest m e).2) :=
  (Interval.contains_refine (proper_interval hm e) (last_grid_lt_width hn hm)).rounds hm

theorem Rounds.pos {x : ℚ} (hm : 0 < m) (h : Rounds m e x) : 0 < x := by
  have hone : (1 : ℚ) ≤ m := by exact_mod_cast hm
  exact lt_of_lt_of_le (mul_pos (by linarith) (two_zpow_pos e)) h.low

theorem dropZeros_value (n : ℕ) (x : ℕ × ℤ) :
    ((dropZeros n x).1 : ℚ) * 10 ^ (dropZeros n x).2 = x.1 * 10 ^ x.2 := by
  induction n generalizing x with
  | zero => rfl
  | succ n ih =>
      obtain ⟨digits, place⟩ := x
      rw [dropZeros]
      split
      · next h =>
          rw [ih]
          have hdigits : digits = digits / 10 * 10 := by
            simp only [Bool.and_eq_true, decide_eq_true_eq] at h
            omega
          have hcast : (digits : ℚ) = (digits / 10 : ℕ) * 10 := by exact_mod_cast hdigits
          change ((digits / 10 : ℕ) : ℚ) * 10 ^ (place + 1) = digits * 10 ^ place
          rw [hcast, zpow_add_one₀ (by norm_num)]
          ring
      · rfl

end

section

variable {m digits : ℕ} {e exponent : ℤ}

theorem Rounds.digits_pos (hm : 0 < m) (h : Rounds m e (digits * 10 ^ exponent)) : 0 < digits := by
  rcases Nat.eq_zero_or_pos digits with hzero | hpos
  · have hx := h.pos hm
    rw [hzero, Nat.cast_zero, zero_mul] at hx
    exact absurd hx (lt_irrefl 0)
  · exact hpos

theorem Rounds.exponent_le (hn : Normalized m e) (hm : 0 < m)
    (h : Rounds m e (digits * 10 ^ exponent)) : exponent ≤ 1000 := by
  by_contra hlarge
  have hone : (1 : ℚ) ≤ digits := by exact_mod_cast h.digits_pos hm
  have hgreatest := hn.greatest
  have hpower : (2 : ℚ) ^ 1024 ≤ 10 ^ 1001 := two_pow_le_ten_pow (by norm_num)
  have hbound : (2 : ℚ) ^ (e + 53) ≤ 10 ^ exponent :=
    calc (2 : ℚ) ^ (e + 53) ≤ 2 ^ ((1024 : ℕ) : ℤ) := two_zpow_le (by push_cast; omega)
      _ ≤ 10 ^ ((1001 : ℕ) : ℤ) := by rw [zpow_natCast, zpow_natCast]; exact hpower
      _ ≤ 10 ^ exponent := zpow_le_zpow_right₀ (by norm_num) (by push_cast; omega)
  have hx := h.below hn
  have hvalue : (10 : ℚ) ^ exponent ≤ digits * 10 ^ exponent :=
    le_mul_of_one_le_left (ten_zpow_pos exponent).le hone
  linarith

theorem Rounds.neg_le_size (hn : Normalized m e) (hm : 0 < m)
    (h : Rounds m e (digits * 10 ^ exponent)) : -1000 ≤ exponent + (digits.log2 / 3 : ℕ) := by
  by_contra hsmall
  obtain ⟨k, hk⟩ := Int.eq_ofNat_of_zero_le (show 0 ≤ -exponent by omega)
  obtain rfl : exponent = -k := by omega
  have hone : (1 : ℚ) ≤ m := by exact_mod_cast hm
  have hleast := hn.least
  have hdigits : (digits : ℚ) < 2 ^ (digits.log2 + 1) := by exact_mod_cast Nat.lt_log2_self
  have hpower : (2 : ℚ) ^ (digits.log2 + 1 + 1075) ≤ 10 ^ k := two_pow_le_ten_pow (by omega)
  have hlow : (2 : ℚ) ^ (-(1075 : ℕ) : ℤ) ≤ digits * 10 ^ (-(k : ℤ)) :=
    calc (2 : ℚ) ^ (-(1075 : ℕ) : ℤ) ≤ 2 ^ (e - 1) := two_zpow_le (by push_cast; omega)
      _ = 1 / 2 * 2 ^ e := by rw [zpow_sub_one₀ (by norm_num)]; ring
      _ ≤ (m - 1 / 2) * 2 ^ e :=
          mul_le_mul_of_nonneg_right (by linarith) (two_zpow_pos e).le
      _ ≤ digits * 10 ^ (-(k : ℤ)) := h.low
  rw [zpow_neg, zpow_neg, zpow_natCast, zpow_natCast, inv_le_iff_one_le_mul₀ (by positivity),
    mul_assoc, mul_comm, mul_assoc, ← div_eq_inv_mul, le_div_iff₀ (by positivity), one_mul] at hlow
  rw [pow_add] at hpower
  have hproduct := mul_lt_mul_of_pos_right hdigits (show (0 : ℚ) < 2 ^ 1075 by positivity)
  rw [mul_comm] at hproduct
  exact absurd (hproduct.trans_le hpower) (not_lt.2 hlow)

theorem ofDecimal_of_rounds (negative : Bool) (hn : Normalized m e) (hm : 0 < m)
    (h : Rounds m e (digits * 10 ^ exponent)) :
    ofDecimal negative digits exponent = .finite negative m e := by
  have hdigits := h.digits_pos hm
  have hhigh := h.exponent_le hn hm
  have hlow := h.neg_le_size hn hm
  have hratio : Rounds m e ((digits * 10 ^ exponent.toNat : ℕ) / (10 ^ (-exponent).toNat : ℕ)) := by
    rw [zpow_eq_div, ← mul_div_assoc] at h
    exact_mod_cast h
  simp only [ofDecimal]
  rw [if_neg (by omega), if_neg (by omega), if_neg (by omega)]
  exact ofRatio_of_rounds negative (Nat.mul_pos hdigits (Nat.pow_pos (by decide)))
    (Nat.pow_pos (by decide)) hn hratio

end

section

variable {m : ℕ} {e : ℤ} (n : ℕ)

theorem rounds_shown (hn : Normalized m e) (hm : 0 < m) :
    Rounds m e ((dropZeros n (shortest m e)).1 * 10 ^ (dropZeros n (shortest m e)).2) := by
  rw [dropZeros_value]
  exact rounds_shortest hn hm

theorem shown_pos (hn : Normalized m e) (hm : 0 < m) : 0 < (dropZeros n (shortest m e)).1 :=
  (rounds_shown n hn hm).digits_pos hm

theorem ofDecimal_shortest {digits : ℕ} {exponent : ℤ} (negative : Bool) (hn : Normalized m e)
    (hm : 0 < m) (h : (digits : ℚ) * 10 ^ exponent =
      (dropZeros n (shortest m e)).1 * 10 ^ (dropZeros n (shortest m e)).2) :
    ofDecimal negative digits exponent = .finite negative m e := by
  refine ofDecimal_of_rounds negative hn hm ?_
  rw [h]
  exact rounds_shown n hn hm

end

end Binary64

end SchemaDiagram
