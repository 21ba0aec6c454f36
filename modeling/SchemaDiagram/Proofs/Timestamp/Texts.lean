import SchemaDiagram.Proofs.Decimal.Order
import SchemaDiagram.Proofs.Timestamp.Calendar

/-!
The order of the texts of instants. Later instants have greater texts, unless a whole second, of which
no fraction is written, is followed by an instant within that second.
-/

namespace SchemaDiagram.Timestamp

theorem isDigit_of_mem_padded {width : Nat} {n : Int} {c : Char} (h : c ∈ padded width n) :
    c.isDigit = true := by
  rcases List.mem_append.1 h with hzero | hdigit
  · exact isDigit_zeros hzero
  · exact isDigit_of_mem_natText hdigit

theorem length_padded {width : Nat} {n : Int} (hwidth : 0 < width) (h : Fits width n) :
    (padded width n).length = width := by
  have hlength : (natText n.natAbs).length ≤ width :=
    (Nat.length_toDigits_le_iff (by decide) hwidth).2 h.2
  simp only [padded, List.length_append, List.length_replicate]
  omega

theorem digitsValue_padded (width : Nat) (n : Int) :
    Numeral.digitsValue 10 (padded width n) = n.natAbs := by
  rw [padded, Numeral.digitsValue_zeros_append, digitsValue_natText]

theorem column_lt {width : Nat} {m n : Int} (hwidth : 0 < width) (hm : Fits width m)
    (hn : Fits width n) {as bs : List Char} (h : m < n ∨ m = n ∧ as < bs) :
    padded width m ++ as < padded width n ++ bs := by
  rcases h with hlt | ⟨rfl, hrest⟩
  · refine append_lt_append ?_ ?_ as bs
    · rw [length_padded hwidth hm, length_padded hwidth hn]
    · refine lt_of_digitsValue_lt (fun c => isDigit_of_mem_padded) (fun c => isDigit_of_mem_padded)
        ?_ ?_
      · rw [length_padded hwidth hm, length_padded hwidth hn]
      · rw [digitsValue_padded, digitsValue_padded]
        have hzero := hm.1
        omega
  · exact List.append_left_lt hrest

def dateText (date : Date) (rest : List Char) : List Char :=
  padded 4 date.year ++ '-' :: (padded 2 date.month ++ '-' :: (padded 2 date.day ++ 'T' :: rest))

def clockText (seconds : Int) (rest : List Char) : List Char :=
  padded 2 (seconds / 3600) ++ ':' ::
    (padded 2 (seconds / 60 % 60) ++ ':' :: (padded 2 (seconds % 60) ++ rest))

def endText (microseconds : Int) : List Char :=
  fractionText microseconds ++ ['Z']

theorem toList_text (t : Timestamp) :
    t.text.toList =
      dateText (Date.ofDay (t.microseconds / dayLength))
        (clockText (t.microseconds % dayLength / secondLength)
          (endText (t.microseconds % dayLength % secondLength))) := by
  have hday : (0 : Int) ≤ dayLength := by decide
  have hsecond : (0 : Int) ≤ secondLength := by decide
  have hhour : (0 : Int) ≤ 3600 := by decide
  have hminute : (0 : Int) ≤ 60 := by decide
  simp only [text, String.toList_ofList, Int.fmod_eq_emod_of_nonneg _ hday,
    Int.fmod_eq_emod_of_nonneg _ hsecond, Int.fmod_eq_emod_of_nonneg _ hminute,
    Int.fdiv_eq_ediv_of_nonneg _ hday, Int.fdiv_eq_ediv_of_nonneg _ hsecond,
    Int.fdiv_eq_ediv_of_nonneg _ hhour, Int.fdiv_eq_ediv_of_nonneg _ hminute, List.append_assoc,
    List.cons_append]
  rfl

theorem dateText_lt {a b : Int} (ha : Date.InCalendar a) (hb : Date.InCalendar b) (h : a < b)
    (as bs : List Char) : dateText (Date.ofDay a) as < dateText (Date.ofDay b) bs := by
  obtain ⟨hyear, hmonth, hday⟩ := Date.ofDay_fits ha
  obtain ⟨hyear', hmonth', hday'⟩ := Date.ofDay_fits hb
  have hbefore := Date.ofDay_before ha hb h
  refine column_lt (Nat.succ_pos _) hyear hyear' (hbefore.imp_right (And.imp_right fun hmonths => ?_))
  rw [List.cons_lt_cons_self]
  refine column_lt (Nat.succ_pos _) hmonth hmonth' (hmonths.imp_right (And.imp_right fun hdays => ?_))
  rw [List.cons_lt_cons_self]
  exact column_lt (Nat.succ_pos _) hday hday' (.inl hdays)

theorem dateText_lt_dateText (date : Date) {as bs : List Char} (h : as < bs) :
    dateText date as < dateText date bs := by
  refine List.append_left_lt (List.cons_lt_cons_self.2 ?_)
  refine List.append_left_lt (List.cons_lt_cons_self.2 ?_)
  exact List.append_left_lt (List.cons_lt_cons_self.2 h)

def InDay (seconds : Int) : Prop :=
  0 ≤ seconds ∧ seconds < 86400

theorem clockText_lt {a b : Int} (ha : InDay a) (hb : InDay b) (h : a < b) (as bs : List Char) :
    clockText a as < clockText b bs := by
  obtain ⟨ha, ha'⟩ := ha
  obtain ⟨hb, hb'⟩ := hb
  have hfits : ∀ n : Int, 0 ≤ n ∧ n < 60 → Fits 2 n := by
    intro n hn
    simp only [Fits, Nat.pow_eq, Nat.reducePow]
    omega
  -- Hours, minutes and seconds decide in this order.
  rcases Int.lt_or_eq_of_le (show a / 3600 ≤ b / 3600 by omega) with hhour | hhour
  · exact column_lt (Nat.succ_pos _) (hfits _ (by omega)) (hfits _ (by omega)) (.inl hhour)
  · refine column_lt (Nat.succ_pos _) (hfits _ (by omega)) (hfits _ (by omega)) (.inr ⟨hhour, ?_⟩)
    rw [List.cons_lt_cons_self]
    rcases Int.lt_or_eq_of_le (show a / 60 % 60 ≤ b / 60 % 60 by omega) with hminute | hminute
    · exact column_lt (Nat.succ_pos _) (hfits _ (by omega)) (hfits _ (by omega)) (.inl hminute)
    · refine column_lt (Nat.succ_pos _) (hfits _ (by omega)) (hfits _ (by omega)) (.inr ⟨hminute, ?_⟩)
      rw [List.cons_lt_cons_self]
      exact column_lt (Nat.succ_pos _) (hfits _ (by omega)) (hfits _ (by omega)) (.inl (by omega))

theorem clockText_lt_clockText (seconds : Int) {as bs : List Char} (h : as < bs) :
    clockText seconds as < clockText seconds bs := by
  refine List.append_left_lt (List.cons_lt_cons_self.2 ?_)
  exact List.append_left_lt (List.cons_lt_cons_self.2 (List.append_left_lt h))

theorem endText_lt {a b : Int} (ha : 0 < a) (hb : b < secondLength) (h : a < b) :
    endText a < endText b := by
  rw [secondLength] at hb
  have hzero : a ≠ 0 := by omega
  have hzero' : b ≠ 0 := by omega
  rw [endText, endText, fractionText, fractionText, if_neg hzero, if_neg hzero', List.cons_append,
    List.cons_append, List.cons_lt_cons_self]
  have hfits : ∀ n : Int, 0 ≤ n ∧ n < 1000000 → Fits 6 n := by
    intro n hn
    simp only [Fits, Nat.pow_eq, Nat.reducePow]
    omega
  exact column_lt (Nat.succ_pos _) (hfits a (by omega)) (hfits b (by omega)) (.inl h)

theorem endText_lt_endText_zero {a : Int} (ha : a ≠ 0) : endText a < endText 0 := by
  -- The letter at the end of a text is greater than the point in front of a fraction.
  rw [endText, endText, fractionText, if_neg ha, List.cons_append]
  exact List.cons_lt_cons_iff.2 (.inl (by decide))

def InCalendar (t : Timestamp) : Prop :=
  -62135596800000000 ≤ t.microseconds ∧ t.microseconds < 253402300800000000

def Before (t u : Timestamp) : Prop :=
  t.microseconds < u.microseconds

def Overtakes (t u : Timestamp) : Prop :=
  t.microseconds % secondLength = 0 ∧ t.Before u ∧ u.microseconds < t.microseconds + secondLength

instance (t : Timestamp) : Decidable t.InCalendar :=
  inferInstanceAs (Decidable (_ ∧ _))

instance (t u : Timestamp) : Decidable (t.Before u) :=
  inferInstanceAs (Decidable (_ < _))

instance (t u : Timestamp) : Decidable (t.Overtakes u) :=
  inferInstanceAs (Decidable (_ ∧ _ ∧ _))

theorem inCalendar_day {t : Timestamp} (h : t.InCalendar) :
    Date.InCalendar (t.microseconds / dayLength) := by
  obtain ⟨hfirst, hlast⟩ := h
  rw [Date.InCalendar, dayLength, secondLength]
  omega

theorem inDay_seconds (t : Timestamp) : InDay (t.microseconds % dayLength / secondLength) := by
  rw [InDay, dayLength, secondLength]
  omega

theorem text_lt_text {t u : Timestamp} (ht : t.InCalendar) (hu : u.InCalendar) (h : t.Before u)
    (hovertakes : ¬ t.Overtakes u) : t.text < u.text := by
  change t.text.toList < u.text.toList
  rw [toList_text, toList_text]
  have hdays : t.microseconds / dayLength ≤ u.microseconds / dayLength := by
    rw [Before] at h
    rw [dayLength, secondLength]
    omega
  rcases Int.lt_or_eq_of_le hdays with hday | hday
  · exact dateText_lt (inCalendar_day ht) (inCalendar_day hu) hday _ _
  · rw [hday]
    refine dateText_lt_dateText _ ?_
    have hseconds : t.microseconds % dayLength / secondLength ≤
        u.microseconds % dayLength / secondLength := by
      rw [Before] at h
      rw [dayLength, secondLength] at hday ⊢
      omega
    rcases Int.lt_or_eq_of_le hseconds with hsecond | hsecond
    · exact clockText_lt (inDay_seconds t) (inDay_seconds u) hsecond _ _
    · rw [hsecond]
      refine clockText_lt_clockText _ (endText_lt ?_ ?_ ?_)
      · rw [Overtakes, Before] at hovertakes
        rw [Before] at h
        rw [dayLength, secondLength] at *
        omega
      · rw [dayLength, secondLength]
        omega
      · rw [Before] at h
        rw [dayLength, secondLength] at *
        omega

theorem text_lt_text_of_overtakes {t u : Timestamp} (h : t.Overtakes u) : u.text < t.text := by
  obtain ⟨hwhole, hbefore, hwithin⟩ := h
  rw [Before] at hbefore
  rw [secondLength] at hwhole hwithin
  have hday : u.microseconds / dayLength = t.microseconds / dayLength := by
    rw [dayLength, secondLength]
    omega
  have hsecond : u.microseconds % dayLength / secondLength =
      t.microseconds % dayLength / secondLength := by
    rw [dayLength, secondLength]
    omega
  have hnone : t.microseconds % dayLength % secondLength = 0 := by
    rw [dayLength, secondLength]
    omega
  have hsome : u.microseconds % dayLength % secondLength ≠ 0 := by
    rw [dayLength, secondLength]
    omega
  change u.text.toList < t.text.toList
  rw [toList_text, toList_text, hday, hsecond, hnone]
  exact dateText_lt_dateText _ (clockText_lt_clockText _ (endText_lt_endText_zero hsome))

end SchemaDiagram.Timestamp
