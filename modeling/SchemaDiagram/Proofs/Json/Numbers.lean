import SchemaDiagram.Json.Reader
import SchemaDiagram.Json.Writer
import SchemaDiagram.Proofs.Decimal.Digits
import SchemaDiagram.Proofs.Decimal.Shortest

namespace SchemaDiagram.Json

def EndsNumber (rest : List Char) : Prop :=
  ∀ c ∈ rest.head?, c.isDigit = false ∧ c ≠ '.' ∧ c ≠ 'e' ∧ c ≠ 'E'

theorem EndsNumber.endsDigits {rest : List Char} (h : EndsNumber rest) : EndsDigits rest :=
  fun c hc => (h c hc).1

theorem endsNumber_cons {c : Char} (h : c.isDigit = false ∧ c ≠ '.' ∧ c ≠ 'e' ∧ c ≠ 'E')
    (rest : List Char) : EndsNumber (c :: rest) := by
  intro d hd
  obtain rfl : c = d := by simpa using hd
  exact h

theorem wholeDigits_append {run rest : List Char} (hne : run ≠ []) (hrun : ∀ c ∈ run, c.isDigit = true)
    (hhead : run.head? ≠ some '0') (hend : EndsDigits rest) :
    wholeDigits (run ++ rest) = (run, rest) := by
  cases run with
  | nil => exact absurd rfl hne
  | cons c run =>
      have hc : c ≠ '0' := by simpa using hhead
      have htake := takeWhile_digits hrun hend
      have hdrop := dropWhile_digits hrun hend
      rw [List.cons_append] at htake hdrop ⊢
      rw [wholeDigits, htake, hdrop]
      intro cs h
      exact hc (List.cons.inj h).1

theorem fractionDigits_point {run rest : List Char} (hne : run ≠ [])
    (hrun : ∀ c ∈ run, c.isDigit = true) (hend : EndsDigits rest) :
    fractionDigits ('.' :: run ++ rest) = (run, rest) := by
  cases run with
  | nil => exact absurd rfl hne
  | cons c run =>
      have htake := takeWhile_digits hrun hend
      have hdrop := dropWhile_digits hrun hend
      rw [List.cons_append] at htake hdrop
      rw [List.cons_append, List.cons_append, fractionDigits, if_pos (hrun c (by simp)), htake, hdrop]

theorem fractionDigits_of_ne {rest : List Char} (h : rest.head? ≠ some '.') :
    fractionDigits rest = ([], rest) := by
  rw [fractionDigits]
  rintro c cs rfl
  exact h rfl

theorem exponentPart?_of_ends {rest : List Char} (h : EndsNumber rest) : exponentPart? rest = none := by
  cases rest with
  | nil => rfl
  | cons c rest =>
      obtain ⟨-, -, hlower, hupper⟩ := h c rfl
      simp [exponentPart?, hlower, hupper]

theorem exponentPart?_signed {digits rest : List Char} (negative : Bool) (hne : digits ≠ [])
    (hrun : ∀ c ∈ digits, c.isDigit = true) (hend : EndsDigits rest) :
    exponentPart? ('e' :: (if negative then '-' else '+') :: digits ++ rest) =
      some (if negative then -(Numeral.digitsValue 10 digits : Int)
        else Numeral.digitsValue 10 digits, rest) := by
  have htake := takeWhile_digits hrun hend
  have hdrop := dropWhile_digits hrun hend
  have hempty : digits.isEmpty = false := by simpa using hne
  cases negative <;>
    simp [exponentPart?, Numeral.signed, htake, hdrop, hempty]

theorem exponentPart?_exponentText (e : Int) {rest : List Char} (hend : EndsDigits rest) :
    exponentPart? (Binary64.exponentText e ++ rest) = some (e, rest) := by
  generalize hdigits : (if (natText e.natAbs).length < 2 then '0' :: natText e.natAbs
    else natText e.natAbs) = digits
  have hvalue : Numeral.digitsValue 10 digits = e.natAbs := by
    have hzero := Numeral.digitsValue_zeros_append 1 (natText e.natAbs)
    rw [← hdigits]
    split
    · exact hzero.trans (digitsValue_natText e.natAbs)
    · exact digitsValue_natText e.natAbs
  have hrun : ∀ c ∈ digits, c.isDigit = true := by
    intro c hc
    rw [← hdigits] at hc
    split at hc
    · rcases List.mem_cons.1 hc with rfl | hc
      · rfl
      · exact isDigit_of_mem_natText hc
    · exact isDigit_of_mem_natText hc
  have hne : digits ≠ [] := by
    rw [← hdigits]
    split
    · exact List.cons_ne_nil _ _
    · exact natText_ne_nil _
  have htext : Binary64.exponentText e =
      'e' :: (if decide (e < 0) then '-' else '+') :: digits := by
    rw [← hdigits, Binary64.exponentText]
    simp
  rw [htext, exponentPart?_signed (decide (e < 0)) hne hrun hend, hvalue]
  congr 2
  split
  · next h =>
      have := of_decide_eq_true h
      omega
  · next h =>
      have := of_decide_eq_false (Bool.not_eq_true _ ▸ h)
      omega

def signText (negative : Bool) : List Char :=
  if negative then ['-'] else []

theorem unsigned_signText (negative : Bool) {body : List Char} (h : body.head? ≠ some '-') :
    unsigned (signText negative ++ body) = (negative, body) := by
  cases negative with
  | true => rfl
  | false =>
      cases body with
      | nil => rfl
      | cons c body =>
          have hc : c ≠ '-' := by simpa using h
          change unsigned (c :: body) = (false, c :: body)
          rw [unsigned]
          intro cs heq
          exact hc (List.cons.inj heq).1

structure Whole (whole tail : List Char) : Prop where
  ne_nil : whole ≠ []
  digits : ∀ c ∈ whole, c.isDigit = true
  split : wholeDigits (whole ++ tail) = (whole, tail)

theorem whole_zero (tail : List Char) : Whole ['0'] tail :=
  ⟨List.cons_ne_nil _ _, by simp, rfl⟩

theorem whole_run {run tail : List Char} (hne : run ≠ []) (hrun : ∀ c ∈ run, c.isDigit = true)
    (hhead : run.head? ≠ some '0') (hend : EndsDigits tail) : Whole run tail :=
  ⟨hne, hrun, wholeDigits_append hne hrun hhead hend⟩

theorem Whole.unsigned_eq {whole tail : List Char} (h : Whole whole tail) (negative : Bool) :
    unsigned (signText negative ++ (whole ++ tail)) = (negative, whole ++ tail) := by
  refine unsigned_signText negative ?_
  rw [List.head?_append_of_ne_nil _ h.ne_nil]
  intro hhead
  exact absurd (h.digits '-' (List.mem_of_head? hhead)) (by decide)

section

variable {whole fraction tail rest : List Char} (negative : Bool)

theorem number?_integer (hwhole : Whole whole rest) (hend : EndsNumber rest)
    (hlimit : whole.length ≤ Numeral.digitLimit) :
    number? (signText negative ++ (whole ++ rest)) =
      some (.ok (.int (if negative then -(Numeral.digitsValue 10 whole : Int)
        else Numeral.digitsValue 10 whole)), rest) := by
  have hfraction : fractionDigits rest = ([], rest) :=
    fractionDigits_of_ne fun h => (hend '.' h).2.1 rfl
  have hempty : whole.isEmpty = false := by simpa using hwhole.ne_nil
  simp only [number?, hwhole.unsigned_eq, hwhole.split, hfraction, exponentPart?_of_ends hend, hempty]
  rw [if_neg (by decide), if_neg (by omega)]

theorem number?_decimal {found : Option (Int × List Char)} (hwhole : Whole whole tail)
    (hfraction : fractionDigits tail = (fraction, rest)) (hexponent : exponentPart? rest = found)
    (hbinary : fraction ≠ [] ∨ found ≠ none) :
    number? (signText negative ++ (whole ++ tail)) =
      some (.ok (.float (.ofDecimal negative (Numeral.digitsValue 10 (whole ++ fraction))
        ((found.getD (0, rest)).1 - fraction.length))), (found.getD (0, rest)).2) := by
  have hempty : whole.isEmpty = false := by simpa using hwhole.ne_nil
  simp only [number?, hwhole.unsigned_eq, hwhole.split, hfraction, hexponent, hempty]
  rw [if_neg (by decide)]
  split
  · next hnone => exact absurd hbinary (by simp)
  · rfl

end

theorem whole_natText (n : Nat) {rest : List Char} (hend : EndsDigits rest) :
    Whole (natText n) rest := by
  rcases Nat.eq_zero_or_pos n with rfl | hpos
  · rw [natText_zero]
    exact whole_zero rest
  · exact whole_run (natText_ne_nil n) (fun _ => isDigit_of_mem_natText) (head_natText_ne_zero hpos)
      hend

theorem number?_intText {n : Int} {rest : List Char} (hend : EndsNumber rest)
    (hlimit : (natText n.natAbs).length ≤ Numeral.digitLimit) :
    number? (intText n ++ rest) = some (.ok (.int n), rest) := by
  have htext : intText n ++ rest =
      signText (decide (n < 0)) ++ (natText n.natAbs ++ rest) := by
    by_cases h : n < 0 <;> simp [intText, signText, h]
  rw [htext, number?_integer _ (whole_natText _ hend.endsDigits) hend hlimit, digitsValue_natText]
  congr 4
  split
  · next h =>
      have := of_decide_eq_true h
      omega
  · next h =>
      have := of_decide_eq_false (Bool.not_eq_true _ ▸ h)
      omega

def ReadsDecimal (negative : Bool) (text rest : List Char) (value : ℚ) : Prop :=
  ∃ digits exponent, number? (signText negative ++ (text ++ rest)) =
      some (.ok (.float (.ofDecimal negative digits exponent)), rest) ∧
    (digits : ℚ) * 10 ^ exponent = value

section

variable {whole fraction rest : List Char} (negative : Bool)

theorem readsDecimal_positional (hend : EndsNumber rest)
    (hwhole : Whole whole ('.' :: fraction ++ rest)) (hne : fraction ≠ [])
    (hrun : ∀ c ∈ fraction, c.isDigit = true) :
    ReadsDecimal negative (whole ++ '.' :: fraction) rest
      (Numeral.digitsValue 10 (whole ++ fraction) * 10 ^ (-(fraction.length : Int))) := by
  have hread := number?_decimal negative hwhole (fractionDigits_point hne hrun hend.endsDigits)
    (exponentPart?_of_ends hend) (.inl hne)
  refine ⟨Numeral.digitsValue 10 (whole ++ fraction), -(fraction.length : Int), ?_, rfl⟩
  rw [List.append_assoc, List.cons_append]
  simpa using hread

theorem readsDecimal_scientific {point : List Char} (e : Int) (hend : EndsDigits rest)
    (hwhole : Whole whole (point ++ (Binary64.exponentText e ++ rest)))
    (hfraction : fractionDigits (point ++ (Binary64.exponentText e ++ rest)) =
      (fraction, Binary64.exponentText e ++ rest)) :
    ReadsDecimal negative (whole ++ point ++ Binary64.exponentText e) rest
      (Numeral.digitsValue 10 (whole ++ fraction) * 10 ^ (e - fraction.length)) := by
  have hread := number?_decimal negative hwhole hfraction (exponentPart?_exponentText e hend)
    (.inr (by simp))
  refine ⟨Numeral.digitsValue 10 (whole ++ fraction), e - fraction.length, ?_, rfl⟩
  rw [List.append_assoc, List.append_assoc]
  simpa using hread

end

section

variable {n : Nat} {rest : List Char} (negative : Bool)

theorem endsDigits_point (cs : List Char) : EndsDigits ('.' :: cs) :=
  endsDigits_cons (by decide) cs

theorem readsDecimal_below (n zeros : Nat) (hend : EndsNumber rest) :
    ReadsDecimal negative (['0'] ++ '.' :: (List.replicate zeros '0' ++ natText n)) rest
      (n * 10 ^ (-(zeros : Int) - (natText n).length)) := by
  have hread := readsDecimal_positional negative hend
    (whole_zero ('.' :: (List.replicate zeros '0' ++ natText n) ++ rest))
    (List.append_ne_nil_of_right_ne_nil _ (natText_ne_nil n)) (by
      intro c hc
      rcases List.mem_append.1 hc with h | h
      · exact isDigit_zeros h
      · exact isDigit_of_mem_natText h)
  have hvalue : Numeral.digitsValue 10 (['0'] ++ (List.replicate zeros '0' ++ natText n)) = n := by
    have hzeros := Numeral.digitsValue_zeros_append (zeros + 1) (natText n)
    rw [digitsValue_natText] at hzeros
    exact hzeros
  have hexponent : -((List.replicate zeros '0' ++ natText n).length : Int) =
      -(zeros : Int) - (natText n).length := by
    rw [List.length_append, List.length_replicate]
    push_cast
    ring
  rw [hvalue, hexponent] at hread
  exact hread

theorem readsDecimal_above (hpos : 0 < n) (zeros : Nat) (hend : EndsNumber rest) :
    ReadsDecimal negative ((natText n ++ List.replicate zeros '0') ++ '.' :: ['0']) rest
      (n * 10 ^ (zeros : Int)) := by
  have hwhole : Whole (natText n ++ List.replicate zeros '0') ('.' :: ['0'] ++ rest) := by
    refine whole_run (List.append_ne_nil_of_left_ne_nil (natText_ne_nil n) _) ?_ ?_
      (endsDigits_point _)
    · intro c hc
      rcases List.mem_append.1 hc with h | h
      · exact isDigit_of_mem_natText h
      · exact isDigit_zeros h
    · rw [List.head?_append_of_ne_nil _ (natText_ne_nil n)]
      exact head_natText_ne_zero hpos
  have hread := readsDecimal_positional negative hend hwhole (List.cons_ne_nil _ _) (by simp)
  have hvalue : Numeral.digitsValue 10 ((natText n ++ List.replicate zeros '0') ++ ['0']) =
      n * 10 ^ (zeros + 1) := by
    have hzeros := Numeral.digitsValue_append_zeros (natText n) (zeros + 1)
    rw [digitsValue_natText, List.replicate_succ'] at hzeros
    rw [List.append_assoc]
    exact hzeros
  have hsame : ((n * 10 ^ (zeros + 1) : ℕ) : ℚ) * 10 ^ (-(['0'].length : Int)) =
      n * 10 ^ (zeros : Int) := by
    have hone : (10 : ℚ) ^ (-(['0'].length : Int)) = 1 / 10 := by norm_num
    rw [hone, zpow_natCast]
    push_cast
    ring
  rw [hvalue, hsame] at hread
  exact hread

theorem readsDecimal_among (hpos : 0 < n) (point : Nat) (hpoint : 0 < point)
    (hlt : point < (natText n).length) (hend : EndsNumber rest) :
    ReadsDecimal negative ((natText n).take point ++ '.' :: (natText n).drop point) rest
      (n * 10 ^ ((point : Int) - (natText n).length)) := by
  have hhead : ((natText n).take point).head? = (natText n).head? := by
    rw [List.head?_take, if_neg (by omega)]
  have hwhole : Whole ((natText n).take point) ('.' :: (natText n).drop point ++ rest) := by
    refine whole_run ?_ (fun c hc => isDigit_of_mem_natText (List.mem_of_mem_take hc)) ?_
      (endsDigits_point _)
    · intro hnil
      rw [hnil, List.head?_nil] at hhead
      exact natText_ne_nil n (List.head?_eq_none_iff.1 hhead.symm)
    · rw [hhead]
      exact head_natText_ne_zero hpos
  have hread := readsDecimal_positional negative hend hwhole
    (by rw [ne_eq, List.drop_eq_nil_iff]; omega)
    (fun c hc => isDigit_of_mem_natText (List.mem_of_mem_drop hc))
  have hexponent : -(((natText n).drop point).length : Int) =
      (point : Int) - (natText n).length := by
    rw [List.length_drop]
    omega
  rw [List.take_append_drop, digitsValue_natText, hexponent] at hread
  exact hread

theorem readsDecimal_exponent (hpos : 0 < n) (e : Int) (hend : EndsDigits rest) :
    ReadsDecimal negative ((natText n).take 1 ++
        (if (natText n).length < 2 then [] else '.' :: (natText n).drop 1) ++
        Binary64.exponentText e) rest
      (n * 10 ^ (e + 1 - (natText n).length)) := by
  have hlength : 0 < (natText n).length := List.length_pos_iff.2 (natText_ne_nil n)
  have hhead : ((natText n).take 1).head? = (natText n).head? := by
    rw [List.head?_take, if_neg (by decide)]
  have hfirst : ∀ {tail : List Char}, EndsDigits tail → Whole ((natText n).take 1) tail := by
    intro tail htail
    refine whole_run ?_ (fun c hc => isDigit_of_mem_natText (List.mem_of_mem_take hc)) ?_ htail
    · rw [ne_eq, List.take_eq_nil_iff]
      exact fun h => h.elim (by decide) (natText_ne_nil n)
    · rw [hhead]
      exact head_natText_ne_zero hpos
  have hmark : EndsDigits (Binary64.exponentText e ++ rest) := endsDigits_cons (by decide) _
  have hexponent : e - (((natText n).drop 1).length : Int) = e + 1 - (natText n).length := by
    rw [List.length_drop]
    omega
  split
  · next hone =>
      have hnone : (natText n).drop 1 = [] := List.drop_eq_nil_iff.2 (by omega)
      have hfraction : fractionDigits ([] ++ (Binary64.exponentText e ++ rest)) =
          ((natText n).drop 1, Binary64.exponentText e ++ rest) := by
        rw [hnone]
        exact fractionDigits_of_ne (by simp [Binary64.exponentText])
      have hread := readsDecimal_scientific negative e hend (hfirst hmark) hfraction
      rw [List.take_append_drop, digitsValue_natText, hexponent] at hread
      exact hread
  · next hmore =>
      have hfraction : fractionDigits
          ('.' :: (natText n).drop 1 ++ (Binary64.exponentText e ++ rest)) =
          ((natText n).drop 1, Binary64.exponentText e ++ rest) :=
        fractionDigits_point (by rw [ne_eq, List.drop_eq_nil_iff]; omega)
          (fun c hc => isDigit_of_mem_natText (List.mem_of_mem_drop hc)) hmark
      have hread := readsDecimal_scientific negative e hend (hfirst (endsDigits_point _)) hfraction
      rw [List.take_append_drop, digitsValue_natText, hexponent] at hread
      exact hread

theorem readsDecimal_layout (hpos : 0 < n) (point : Int) (hend : EndsNumber rest) :
    ReadsDecimal negative (Binary64.layout (natText n) point) rest
      (n * 10 ^ (point - (natText n).length)) := by
  rw [Binary64.layout]
  split
  · next hplace =>
      simp only [Bool.and_eq_true, decide_eq_true_eq] at hplace
      split
      · next hbelow =>
          have hread := readsDecimal_below negative n (-point).toNat hend
          have hzeros : -(((-point).toNat : ℕ) : Int) = point := by omega
          rw [hzeros] at hread
          exact hread
      · next habove =>
          obtain ⟨k, rfl⟩ := Int.eq_ofNat_of_zero_le (show 0 ≤ point by omega)
          rw [Int.toNat_natCast]
          by_cases hshort : (natText n).length ≤ k
          · have hread := readsDecimal_above negative hpos (k - (natText n).length) hend
            have hzeros : ((k - (natText n).length : ℕ) : Int) = k - (natText n).length := by omega
            rw [hzeros] at hread
            have hnone : (natText n).drop k = [] := List.drop_eq_nil_iff.2 hshort
            rw [List.take_of_length_le hshort, hnone]
            exact hread
          · have hread := readsDecimal_among negative hpos k (by omega) (by omega) hend
            have hnone : k - (natText n).length = 0 := by omega
            have hmore : ((natText n).drop k).isEmpty = false := by
              rw [List.isEmpty_eq_false_iff, ne_eq, List.drop_eq_nil_iff]
              omega
            simp only [hnone, hmore, List.replicate_zero, List.append_nil]
            exact hread
  · have hread := readsDecimal_exponent negative hpos (point - 1) hend.endsDigits
    have hexponent : point - 1 + 1 - ((natText n).length : Int) =
        point - (natText n).length := by ring
    rw [hexponent] at hread
    exact hread

end

theorem number?_text {m : Nat} {e : Int} {rest : List Char} (negative : Bool)
    (hn : Binary64.Normalized m e) (hend : EndsNumber rest) :
    number? ((Binary64.finite negative m e).text ++ rest) =
      some (.ok (.float (.finite negative m e)), rest) := by
  have htext : ∀ body : List Char, (if negative then '-' :: body else body) ++ rest =
      signText negative ++ (body ++ rest) := by
    intro body
    cases negative <;> rfl
  simp only [Binary64.text]
  rw [htext]
  split
  · next hzero =>
      subst hzero
      obtain rfl : e = -1074 := hn.full.resolve_left (by norm_num)
      have hread := number?_decimal negative (whole_zero ('.' :: ['0'] ++ rest))
        (fractionDigits_point (List.cons_ne_nil _ _) (by simp) hend.endsDigits)
        (exponentPart?_of_ends hend) (.inl (List.cons_ne_nil _ _))
      exact hread
  · next hne =>
      have hm : 0 < m := Nat.pos_of_ne_zero hne
      have hdigits := Binary64.shown_pos 20 hn hm
      generalize hshown : Binary64.dropZeros 20 (Binary64.shortest m e) = shown at hdigits
      obtain ⟨digits, exponent, hread, hvalue⟩ := readsDecimal_layout negative hdigits
        (shown.2 + (natText shown.1).length) hend
      have hplace : shown.2 + ((natText shown.1).length : Int) - (natText shown.1).length =
          shown.2 := by ring
      rw [hplace, ← hshown] at hvalue
      rw [hread, Binary64.ofDecimal_shortest 20 negative hn hm hvalue]

end SchemaDiagram.Json
