import SchemaDiagram.Timestamp

namespace SchemaDiagram.Timestamp

def Fits (width : Nat) (n : Int) : Prop :=
  0 ≤ n ∧ n.natAbs < Nat.pow 10 width

theorem daysBeforeYear_eq (year : Int) :
    daysBeforeYear year = 365 * year + year / 4 - year / 100 + year / 400 := by
  rw [daysBeforeYear, Int.fdiv_eq_ediv_of_nonneg year (by decide : (0 : Int) ≤ 4),
    Int.fdiv_eq_ediv_of_nonneg year (by decide : (0 : Int) ≤ 100),
    Int.fdiv_eq_ediv_of_nonneg year (by decide : (0 : Int) ≤ 400)]

theorem daysBeforeYear_le {y z : Int} (h : y ≤ z) : daysBeforeYear y ≤ daysBeforeYear z := by
  rw [daysBeforeYear_eq, daysBeforeYear_eq]
  omega

theorem daysBeforeMonth_eq (month : Int) : daysBeforeMonth month = (153 * month + 2) / 5 :=
  Int.fdiv_eq_ediv_of_nonneg _ (by decide)

namespace Date

def InYear (n year : Int) : Prop :=
  daysBeforeYear year ≤ n ∧ n < daysBeforeYear (year + 1)

theorem InYear.le {m n y z : Int} (hm : InYear m y) (hn : InYear n z) (h : m < n) : y ≤ z := by
  rcases Int.lt_or_le z y with hlater | hle
  · have hyears := daysBeforeYear_le (y := z + 1) (z := y) hlater
    have hstart := hm.1
    have hend := hn.2
    omega
  · exact hle

theorem inYear_latestYear {fuel : Nat} {year n : Int} (hstart : daysBeforeYear year ≤ n)
    (hend : n < daysBeforeYear (year + fuel + 1)) : InYear n (ofDay.latestYear fuel year n) := by
  induction fuel generalizing year with
  | zero =>
      rw [ofDay.latestYear]
      exact ⟨hstart, by simpa using hend⟩
  | succ fuel ih =>
      rw [ofDay.latestYear]
      split
      · rename_i hnext
        refine ih hnext ?_
        rwa [show year + 1 + fuel + 1 = year + (fuel + 1 : Nat) + 1 by omega]
      · exact ⟨hstart, by omega⟩

def InCalendar (day : Int) : Prop :=
  -719162 ≤ day ∧ day < 2932897

theorem inYear_guess {day : Int} (h : InCalendar day) :
    InYear (day + epochDay)
      (ofDay.latestYear 400 ((day + epochDay).fdiv 366) (day + epochDay)) := by
  obtain ⟨hfirst, hlast⟩ := h
  rw [Int.fdiv_eq_ediv_of_nonneg _ (by decide : (0 : Int) ≤ 366), epochDay]
  refine inYear_latestYear ?_ ?_
  · rw [daysBeforeYear_eq]
    omega
  · rw [daysBeforeYear_eq]
    omega

structure Splits (n year month day : Int) : Prop where
  inYear : InYear n year
  start : daysBeforeMonth month ≤ n - daysBeforeYear year
  stop : n - daysBeforeYear year < daysBeforeMonth (month + 1)
  months : 0 ≤ month ∧ month < 12
  day_eq : day = n - daysBeforeYear year - daysBeforeMonth month + 1

theorem InYear.splits {n year : Int} (h : InYear n year) :
    Splits n year ((5 * (n - daysBeforeYear year) + 2).fdiv 153)
      (n - daysBeforeYear year -
        daysBeforeMonth ((5 * (n - daysBeforeYear year) + 2).fdiv 153) + 1) := by
  have hrest : 0 ≤ n - daysBeforeYear year ∧ n - daysBeforeYear year < 366 := by
    obtain ⟨hstart, hend⟩ := h
    rw [daysBeforeYear_eq] at hstart hend ⊢
    omega
  obtain ⟨hzero, hyear⟩ := hrest
  generalize hr : n - daysBeforeYear year = rest at hzero hyear
  rw [Int.fdiv_eq_ediv_of_nonneg _ (by decide : (0 : Int) ≤ 153)]
  refine ⟨h, ?_, ?_, ?_, by rw [hr]⟩
  · rw [hr, daysBeforeMonth_eq]
    omega
  · rw [hr, daysBeforeMonth_eq]
    omega
  · omega

theorem Splits.before {m n y z i j c d : Int} (hm : Splits m y i c) (hn : Splits n z j d)
    (h : m < n) : 12 * y + i < 12 * z + j ∨ 12 * y + i = 12 * z + j ∧ c < d := by
  have hyears := hm.inYear.le hn.inYear h
  have hi := hm.months
  have hj := hn.months
  rcases Int.lt_or_eq_of_le hyears with hyear | rfl
  · left
    omega
  · have hstart := hm.start
    have hstop := hn.stop
    have hc := hm.day_eq
    have hd := hn.day_eq
    rcases Int.lt_trichotomy i j with hmonth | rfl | hmonth
    · exact .inl (by omega)
    · exact .inr ⟨rfl, by omega⟩
    · -- A later month starts on a later day.
      rw [daysBeforeMonth_eq] at hstart hstop
      omega

def Before (a b : Date) : Prop :=
  a.year < b.year ∨ a.year = b.year ∧ (a.month < b.month ∨ a.month = b.month ∧ a.day < b.day)

theorem splits_ofDay {day : Int} (h : InCalendar day) :
    ∃ year month, Splits (day + epochDay) year month (ofDay day).day ∧
      (ofDay day).year = (if month < 10 then year else year + 1) ∧
      (ofDay day).month = if month < 10 then month + 3 else month - 9 :=
  ⟨_, _, (inYear_guess h).splits, rfl, rfl⟩

theorem ofDay_before {a b : Int} (ha : InCalendar a) (hb : InCalendar b) (h : a < b) :
    (ofDay a).Before (ofDay b) := by
  obtain ⟨y, i, hy, hyear, hmonth⟩ := splits_ofDay ha
  obtain ⟨z, j, hz, hyear', hmonth'⟩ := splits_ofDay hb
  have horder := hy.before hz (by omega)
  have hi := hy.months
  have hj := hz.months
  rw [Before, hyear, hmonth, hyear', hmonth']
  split <;> split <;> omega

theorem ofDay_fits {day : Int} (h : InCalendar day) :
    Fits 4 (ofDay day).year ∧ Fits 2 (ofDay day).month ∧ Fits 2 (ofDay day).day := by
  obtain ⟨y, i, hy, hyear, hmonth⟩ := splits_ofDay h
  obtain ⟨hfirst, hlast⟩ := h
  have hi := hy.months
  have hstart := hy.start
  have hstop := hy.stop
  have hd := hy.day_eq
  obtain ⟨hbegin, hend⟩ := hy.inYear
  rw [daysBeforeYear_eq, epochDay] at hbegin hend hstart hstop hd
  rw [daysBeforeMonth_eq] at hstart hstop hd
  rw [hyear, hmonth]
  simp only [Fits, Nat.pow_eq, Nat.reducePow]
  refine ⟨?_, ?_, ?_⟩
  · split <;> omega
  · split <;> omega
  · omega

end Date

end SchemaDiagram.Timestamp
