import SchemaDiagram.Json.Limit
import SchemaDiagram.Proofs.Decimal.Digits
import SchemaDiagram.Proofs.Json.Lawful
import SchemaDiagram.Proofs.Json.Strings

namespace SchemaDiagram

def IsPlain (c : Char) : Prop :=
  c.toNat < 0x80 ∧ c ≠ '\r'

instance (c : Char) : Decidable (IsPlain c) :=
  inferInstanceAs (Decidable (c.toNat < 0x80 ∧ c ≠ '\r'))

def PlainText (cs : List Char) : Prop :=
  ∀ c ∈ cs, IsPlain c

/-- Decided along the list: there are too many characters to try them all. -/
instance (cs : List Char) : Decidable (PlainText cs) :=
  List.decidableBAll IsPlain cs

section

variable {c : Char} {cs ds : List Char}

theorem plainText_nil : PlainText [] :=
  fun _ hc => absurd hc List.not_mem_nil

theorem plainText_cons : PlainText (c :: cs) ↔ IsPlain c ∧ PlainText cs :=
  List.forall_mem_cons

theorem plainText_append : PlainText (cs ++ ds) ↔ PlainText cs ∧ PlainText ds :=
  List.forall_mem_append

theorem PlainText.cons (hc : IsPlain c) (h : PlainText cs) : PlainText (c :: cs) :=
  plainText_cons.2 ⟨hc, h⟩

theorem PlainText.append (h : PlainText cs) (h' : PlainText ds) : PlainText (cs ++ ds) :=
  plainText_append.2 ⟨h, h'⟩

theorem plainText_replicate (hc : IsPlain c) (n : Nat) : PlainText (List.replicate n c) := by
  intro d hd
  rw [List.eq_of_mem_replicate hd]
  exact hc

theorem PlainText.plainNewlines_eq (h : PlainText cs) : Text.plainNewlines cs = cs := by
  induction cs with
  | nil => rfl
  | cons c cs ih =>
      obtain ⟨hc, hcs⟩ := plainText_cons.1 h
      rw [Text.plainNewlines, ih hcs]
      · rintro ds rfl
        exact absurd rfl hc.2
      · rintro rfl
        exact absurd rfl hc.2

end

theorem isPlain_of_isDigit {c : Char} (h : c.isDigit = true) : IsPlain c := by
  have hbound : c.toNat ≤ 57 := by
    simp only [Char.isDigit, Bool.and_eq_true, decide_eq_true_eq] at h
    exact h.2
  refine ⟨by omega, ?_⟩
  rintro rfl
  exact absurd h (by decide)

theorem plainText_natText (n : Nat) : PlainText (natText n) :=
  fun _ hc => isPlain_of_isDigit (isDigit_of_mem_natText hc)

theorem plainText_intText (n : Int) : PlainText (intText n) := by
  rw [intText]
  split
  · exact (plainText_natText _).cons (by decide)
  · exact plainText_natText _

namespace Binary64

theorem plainText_exponentText (e : Int) : PlainText (exponentText e) := by
  have hdigits : PlainText (if (natText e.natAbs).length < 2 then '0' :: natText e.natAbs
      else natText e.natAbs) := by
    split
    · exact (plainText_natText _).cons (by decide)
    · exact plainText_natText _
  refine PlainText.cons (by decide) (hdigits.cons ?_)
  split <;> decide

theorem plainText_layout {digits : List Char} (h : PlainText digits) (point : Int) :
    PlainText (layout digits point) := by
  have htake : ∀ n, PlainText (digits.take n) := fun n c hc => h c (List.mem_of_mem_take hc)
  have hdrop : ∀ n, PlainText (digits.drop n) := fun n c hc => h c (List.mem_of_mem_drop hc)
  have hzeros : ∀ n, PlainText (List.replicate n '0') := plainText_replicate (by decide)
  rw [layout]
  split
  · split
    · exact (((hzeros _).append h).cons (by decide)).cons (by decide)
    · refine ((htake _).append (hzeros _)).append (PlainText.cons (by decide) ?_)
      split
      · decide
      · exact hdrop _
  · refine ((htake 1).append ?_).append (plainText_exponentText _)
    split
    · exact plainText_nil
    · exact (hdrop 1).cons (by decide)

theorem plainText_text (x : Binary64) : PlainText x.text := by
  cases x with
  | nan => decide
  | infinite negative => cases negative <;> decide
  | finite negative m e =>
      have hbody : PlainText (if m = 0 then ['0', '.', '0']
          else layout (natText (dropZeros 20 (shortest m e)).1)
            ((dropZeros 20 (shortest m e)).2 + (natText (dropZeros 20 (shortest m e)).1).length)) := by
        split
        · decide
        · exact plainText_layout (plainText_natText _) _
      simp only [text]
      split
      · exact hbody.cons (by decide)
      · exact hbody

end Binary64

namespace Json

theorem isPlain_hexDigit {n : Nat} (h : n < 16) : IsPlain (Text.hexDigit n) := by
  interval_cases n <;> decide

theorem plainText_hexText (width n : Nat) : PlainText (Text.hexText width n) := by
  induction width generalizing n with
  | zero => exact plainText_nil
  | succ width ih =>
      have hlast := isPlain_hexDigit (Nat.mod_lt n (show 0 < 16 by decide))
      exact (ih _).append (plainText_nil.cons hlast)

theorem plainText_unicodeEscape (n : Nat) : PlainText (unicodeEscape n) :=
  ((plainText_hexText 4 n).cons (by decide)).cons (by decide)

theorem isPlain_of_print {c : Char} (low : c.toNat < 0x7F) (print : 0x20 ≤ c.toNat) : IsPlain c := by
  refine ⟨by omega, ?_⟩
  rintro rfl
  exact absurd print (by decide)

theorem Escape.plainText {c : Char} {text : List Char} (h : Escape c text) : PlainText text := by
  cases h with
  | simple _ _ low print =>
      exact (plainText_nil.cons (isPlain_of_print low print)).cons (by decide)
  | plain _ _ low print => exact plainText_nil.cons (isPlain_of_print low print)
  | unicode _ => exact plainText_unicodeEscape _
  | pair _ => exact (plainText_unicodeEscape _).append (plainText_unicodeEscape _)

theorem plainText_stringText (s : String) : PlainText (stringText s) := by
  have hbody : PlainText (s.toList.flatMap escapeChar) := by
    intro d hd
    obtain ⟨c, -, hc⟩ := List.mem_flatMap.1 hd
    exact (escape_escapeChar c).plainText d hc
  exact (hbody.cons (by decide)).append (by decide)

theorem plainText_lineBreak (level : Nat) : PlainText (lineBreak level) :=
  (plainText_replicate (by decide) _).cons (by decide)

theorem plainText_renderItems {items : List Json}
    (h : ∀ v ∈ items, ∀ level, PlainText (render level v)) (level : Nat) :
    PlainText (render.renderItems level items) := by
  induction items with
  | nil => exact plainText_nil
  | cons v vs ih =>
      obtain ⟨hv, hvs⟩ := List.forall_mem_cons.1 h
      exact (((plainText_lineBreak level).cons (by decide)).append (hv level)).append (ih hvs)

theorem plainText_renderMembers {ms : List (String × Json)}
    (h : ∀ m ∈ ms, ∀ level, PlainText (render level m.2)) (level : Nat) :
    PlainText (render.renderMembers level ms) := by
  induction ms with
  | nil => exact plainText_nil
  | cons m ms ih =>
      obtain ⟨k, v⟩ := m
      obtain ⟨hv, hms⟩ := List.forall_mem_cons.1 h
      rw [render.renderMembers]
      exact (((((plainText_lineBreak level).cons (by decide)).append
        (plainText_stringText k)).append (by decide)).append (hv level)).append (ih hms)

theorem plainText_floatText (x : Binary64) : PlainText (floatText x) := by
  cases x with
  | nan => decide
  | infinite negative => cases negative <;> decide
  | finite negative m e => exact Binary64.plainText_text (.finite negative m e)

theorem plainText_render (v : Json) (level : Nat) : PlainText (render level v) := by
  induction v using induction_on generalizing level with
  | null =>
      rw [render]
      decide
  | bool b =>
      rw [render]
      cases b <;> decide
  | int n => exact plainText_intText n
  | float x => exact plainText_floatText x
  | str s => exact plainText_stringText s
  | arr items ih =>
      cases items with
      | nil =>
          rw [render]
          decide
      | cons v vs =>
          obtain ⟨hv, hvs⟩ := List.forall_mem_cons.1 ih
          rw [render]
          exact (((((plainText_lineBreak _).cons (by decide)).append (hv _)).append
            (plainText_renderItems hvs _)).append (plainText_lineBreak _)).append (by decide)
  | obj members ih =>
      cases members with
      | nil =>
          rw [render]
          decide
      | cons m ms =>
          obtain ⟨k, v⟩ := m
          obtain ⟨hv, hms⟩ := List.forall_mem_cons.1 ih
          rw [render]
          exact (((((((plainText_lineBreak _).cons (by decide)).append
            (plainText_stringText k)).append (by decide)).append (hv _)).append
            (plainText_renderMembers hms _)).append (plainText_lineBreak _)).append (by decide)

theorem plainText_written [Platform] {v : Json} {cs : List Char} (h : v.written = .ok cs) :
    PlainText cs := by
  obtain ⟨-, rfl⟩ := written_eq_ok_iff.1 h
  exact plainText_render v 0

end Json

end SchemaDiagram
