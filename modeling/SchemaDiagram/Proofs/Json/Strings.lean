import Mathlib.Tactic.IntervalCases
import SchemaDiagram.Json.Reader
import SchemaDiagram.Json.Writer
import SchemaDiagram.Proofs.Encoding.Utf8

namespace SchemaDiagram.Json

open SchemaDiagram.Text

theorem hexValue?_hexDigit {n : Nat} (h : n < 16) : hexValue? (hexDigit n) = some n := by
  interval_cases n <;> decide

theorem hexFour?_hexText {n : Nat} (h : n < 0x10000) {rest : List Char} (hrest : rest ≠ []) :
    hexFour? (hexText 4 n ++ rest) = some (n, rest) := by
  have hdigit : ∀ k, hexValue? (hexDigit (k % 16)) = some (k % 16) := fun k =>
    hexValue?_hexDigit (Nat.mod_lt k (by decide))
  cases rest with
  | nil => exact absurd rfl hrest
  | cons c rest =>
      have htext : hexText 4 n = [hexDigit (n / 16 / 16 / 16 % 16), hexDigit (n / 16 / 16 % 16),
          hexDigit (n / 16 % 16), hexDigit (n % 16)] := rfl
      have hvalue : ((n / 16 / 16 / 16 % 16 * 16 + n / 16 / 16 % 16) * 16 + n / 16 % 16) * 16 +
          n % 16 = n := by omega
      simp [htext, hexFour?, hdigit, hvalue]

theorem codePoint_toNat [Platform] (c : Char) : codePoint c.toNat = c := by
  have hbounds := toNat_bounds c
  rw [codePoint, if_neg (by omega), Char.ofNat_toNat]

theorem joinSurrogates?_of_not_high {n : Nat} (h : isHighSurrogate n = false) (cs : List Char) :
    joinSurrogates? n cs = none := by
  rw [joinSurrogates?.eq_def]
  split
  · next rest =>
      cases hfour : hexFour? rest with
      | none => rfl
      | some found => simp [h]
  · rfl

theorem joinSurrogates?_unicodeEscape {high low : Nat} (hhigh : isHighSurrogate high = true)
    (hlow : isLowSurrogate low = true) {rest : List Char} (hrest : rest ≠ []) :
    joinSurrogates? high (unicodeEscape low ++ rest) =
      some (0x10000 + (high - 0xD800) * 0x400 + (low - 0xDC00), rest) := by
  have hbound : low < 0x10000 := by
    simp only [isLowSurrogate, Bool.and_eq_true, decide_eq_true_eq] at hlow
    omega
  have hfour := hexFour?_hexText hbound hrest
  rw [unicodeEscape, List.cons_append, List.cons_append, joinSurrogates?, hfour]
  simp only [Option.bind_eq_bind, Option.bind_some, hhigh, hlow, Bool.and_self, if_true]

theorem joinSurrogates?_pair {n : Nat} (hlow : 0x10000 ≤ n) (hhigh : n < 0x110000)
    {rest : List Char} (hrest : rest ≠ []) :
    joinSurrogates? (0xD800 + (n - 0x10000) / 0x400)
        (unicodeEscape (0xDC00 + (n - 0x10000) % 0x400) ++ rest) = some (n, rest) := by
  have hfirst : isHighSurrogate (0xD800 + (n - 0x10000) / 0x400) = true := by
    simp only [isHighSurrogate, Bool.and_eq_true, decide_eq_true_eq]
    omega
  have hsecond : isLowSurrogate (0xDC00 + (n - 0x10000) % 0x400) = true := by
    simp only [isLowSurrogate, Bool.and_eq_true, decide_eq_true_eq]
    omega
  have hvalue : 0x10000 + (0xD800 + (n - 0x10000) / 0x400 - 0xD800) * 0x400 +
      (0xDC00 + (n - 0x10000) % 0x400 - 0xDC00) = n := by omega
  rw [joinSurrogates?_unicodeEscape hfirst hsecond hrest, hvalue]

def prepend (c : Char) (found : Except Fault (Option (List Char × List Char))) :
    Except Fault (Option (List Char × List Char)) :=
  found.map (·.map fun (s, left) => (c :: s, left))

theorem stringBody_simple [Platform] {c d : Char} (h : simpleEscape? d = some c) (hu : d ≠ 'u')
    (fuel : Nat)
    (rest : List Char) :
    stringBody (fuel + 1) ('\\' :: d :: rest) = prepend c (stringBody fuel rest) := by
  rw [stringBody, if_neg (by decide), if_pos rfl, h]
  · rfl
  · exact hu

theorem stringBody_plain [Platform] {c : Char} (hquote : c ≠ '"') (hslash : c ≠ '\\')
    (hcontrol : 0x20 ≤ c.toNat)
    (fuel : Nat) (rest : List Char) :
    stringBody (fuel + 1) (c :: rest) = prepend c (stringBody fuel rest) := by
  rw [stringBody.eq_def]
  simp only [if_neg hquote, if_neg hslash, if_neg (show ¬ c.toNat < 0x20 by omega)]
  rfl

theorem stringBody_unicode [Platform] {n : Nat} (h : n < 0x10000) {rest : List Char} (hrest : rest ≠ [])
    (fuel : Nat) :
    stringBody (fuel + 1) (unicodeEscape n ++ rest) =
      prepend (codePoint ((joinSurrogates? n rest).getD (n, rest)).1)
        (stringBody fuel ((joinSurrogates? n rest).getD (n, rest)).2) := by
  have hfour := hexFour?_hexText h hrest
  rw [unicodeEscape, List.cons_append, List.cons_append, stringBody, if_neg (by decide), if_pos rfl]
  simp only [hfour]
  rfl

inductive Escape (c : Char) : List Char → Prop
  | simple {d : Char} (read : simpleEscape? d = some c) (other : d ≠ 'u') (low : d.toNat < 0x7F)
      (print : 0x20 ≤ d.toNat) : Escape c ['\\', d]
  | plain (quote : c ≠ '"') (slash : c ≠ '\\') (low : c.toNat < 0x7F) (print : 0x20 ≤ c.toNat) :
      Escape c [c]
  | unicode (short : c.toNat < 0x10000) : Escape c (unicodeEscape c.toNat)
  | pair (long : 0x10000 ≤ c.toNat) :
      Escape c (unicodeEscape (0xD800 + (c.toNat - 0x10000) / 0x400) ++
        unicodeEscape (0xDC00 + (c.toNat - 0x10000) % 0x400))

theorem escape_escapeChar (c : Char) : Escape c (escapeChar c) := by
  by_cases hsimple : c = '"' ∨ c = '\\' ∨ c = '\n' ∨ c = '\r' ∨ c = '\t' ∨ c = '\x0c' ∨ c = '\x08'
  · rcases hsimple with rfl | rfl | rfl | rfl | rfl | rfl | rfl <;>
      exact .simple rfl (by decide) (by decide) (by decide)
  · simp only [not_or] at hsimple
    obtain ⟨hquote, hslash, hline, hreturn, htab, hfeed, hback⟩ := hsimple
    rw [escapeChar, if_neg hquote, if_neg hslash, if_neg hline, if_neg hreturn, if_neg htab,
      if_neg hfeed, if_neg hback]
    split
    · next hplain =>
        simp only [Bool.and_eq_true, decide_eq_true_eq] at hplain
        exact .plain hquote hslash hplain.2 hplain.1
    · split
      · next hshort => exact .unicode hshort
      · next hlong => exact .pair (Nat.le_of_not_lt hlong)

theorem stringBody_escapeChar [Platform] (c : Char) {rest : List Char} (hrest : rest ≠ [])
    (fuel : Nat) :
    stringBody (fuel + 1) (escapeChar c ++ rest) = prepend c (stringBody fuel rest) := by
  have hbounds := toNat_bounds c
  generalize htext : escapeChar c = text
  have hescape : Escape c text := htext ▸ escape_escapeChar c
  cases hescape with
  | simple hread hother => exact stringBody_simple hread hother fuel rest
  | plain hquote hslash _ hprint => exact stringBody_plain hquote hslash hprint fuel rest
  | unicode hshort =>
      have hsingle : isHighSurrogate c.toNat = false := by
        simp only [isHighSurrogate, Bool.and_eq_false_iff, decide_eq_false_iff_not]
        omega
      rw [stringBody_unicode hshort hrest, joinSurrogates?_of_not_high hsingle, Option.getD_none,
        codePoint_toNat]
  | pair hlong =>
      have hpair := joinSurrogates?_pair hlong (by omega) hrest
      rw [List.append_assoc, stringBody_unicode (by omega) (by simp [unicodeEscape]), hpair,
        Option.getD_some, codePoint_toNat]

theorem stringBody_flatMap [Platform] (s : List Char) (rest : List Char) {fuel : Nat}
    (h : s.length < fuel) :
    stringBody fuel (s.flatMap escapeChar ++ '"' :: rest) = .ok (some (s, rest)) := by
  induction s generalizing fuel with
  | nil =>
      obtain ⟨fuel, rfl⟩ := Nat.exists_eq_add_of_lt h
      rw [List.flatMap_nil, List.nil_append, List.length_nil, Nat.zero_add, stringBody.eq_def]
      rfl
  | cons c s ih =>
      cases fuel with
      | zero => exact absurd h (Nat.not_lt_zero _)
      | succ fuel =>
          rw [List.flatMap_cons, List.append_assoc,
            stringBody_escapeChar c (by simp), ih (Nat.lt_of_succ_lt_succ h)]
          rfl

theorem Escape.ne_nil {c : Char} {text : List Char} (h : Escape c text) : text ≠ [] := by
  cases h <;> simp [unicodeEscape]

theorem length_le_flatMap (s : List Char) : s.length ≤ (s.flatMap escapeChar).length := by
  induction s with
  | nil => exact Nat.zero_le _
  | cons c s ih =>
      have hpos : 0 < (escapeChar c).length := List.length_pos_iff.2 (escape_escapeChar c).ne_nil
      rw [List.flatMap_cons, List.length_append, List.length_cons]
      omega

theorem string_flatMap [Platform] (s : String) (rest : List Char) :
    string (s.toList.flatMap escapeChar ++ '"' :: rest) = .ok (s, rest) := by
  have hlength : s.toList.length < (s.toList.flatMap escapeChar ++ '"' :: rest).length + 1 := by
    have hescaped := length_le_flatMap s.toList
    rw [List.length_append]
    omega
  simp only [string, stringBody_flatMap s.toList rest hlength, bind, Except.bind,
    String.ofList_toList]
  rfl

end SchemaDiagram.Json
