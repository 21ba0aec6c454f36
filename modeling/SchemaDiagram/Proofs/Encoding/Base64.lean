import SchemaDiagram.Encoding.Base64
import SchemaDiagram.Proofs.Encoding.Utf8

namespace SchemaDiagram.Base64

def inAlphabet (c : Char) : Bool :=
  c = '=' || (value? c).isSome

def Spells (cs : List Char) (bs : Bytes) : Prop :=
  (∀ c ∈ cs, c.toNat < 0x80) ∧ cs.filter inAlphabet = encode bs

section

variable {n bits pads : Nat} {cs : List Char} {bs : Bytes}

theorem decodeFrom_filter (filled bits pads : Nat) (cs : List Char) :
    decodeFrom filled bits pads (cs.filter inAlphabet) = decodeFrom filled bits pads cs := by
  induction cs generalizing filled bits pads with
  | nil => rfl
  | cons c cs ih =>
      cases hc : inAlphabet c with
      | true =>
          rw [List.filter_cons_of_pos hc]
          simp only [decodeFrom, ih]
      | false =>
          rw [List.filter_cons_of_neg (by simp [hc]), ih]
          obtain ⟨hpad, hvalue⟩ : c ≠ '=' ∧ value? c = none := by simpa [inAlphabet] using hc
          rw [decodeFrom, if_neg hpad, hvalue]

theorem value?_digit : ∀ n < 64, value? (digit n) = some n := by
  decide

theorem digit_ne_pad : ∀ n < 64, digit n ≠ '=' := by
  decide

theorem decodeFrom_first (h : n < 64) :
    decodeFrom 0 bits pads (digit n :: cs) = decodeFrom 1 n 0 cs := by
  rw [decodeFrom, if_neg (digit_ne_pad n h), value?_digit n h]
  rfl

theorem decodeFrom_second (h : n < 64) : decodeFrom 1 bits pads (digit n :: cs) =
    (decodeFrom 2 (n % 16) 0 cs).map (.ofNat (bits * 4 + n / 16) :: ·) := by
  rw [decodeFrom, if_neg (digit_ne_pad n h), value?_digit n h]
  rfl

theorem decodeFrom_third (h : n < 64) : decodeFrom 2 bits pads (digit n :: cs) =
    (decodeFrom 3 (n % 4) 0 cs).map (.ofNat (bits * 16 + n / 4) :: ·) := by
  rw [decodeFrom, if_neg (digit_ne_pad n h), value?_digit n h]
  rfl

theorem decodeFrom_fourth (h : n < 64) : decodeFrom 3 bits pads (digit n :: cs) =
    (decodeFrom 0 0 0 cs).map (.ofNat (bits * 64 + n) :: ·) := by
  rw [decodeFrom, if_neg (digit_ne_pad n h), value?_digit n h]
  rfl

theorem decodeFrom_encode (bs : Bytes) : decodeFrom 0 0 0 (encode bs) = .ok bs := by
  fun_induction encode bs with
  | case1 => rfl
  -- One byte, two bytes and three bytes make a group; the first two are padded.
  | case2 a =>
      have ha := a.toNat_lt
      have hfirst : UInt8.ofNat (a.toNat / 4 * 4 + a.toNat % 4 * 16 / 16) = a :=
        Utf8.ofNat_eq (by omega)
      rw [decodeFrom_first (by omega), decodeFrom_second (by omega), hfirst]
      rfl
  | case3 a b =>
      have ha := a.toNat_lt
      have hb := b.toNat_lt
      have hfirst : UInt8.ofNat (a.toNat / 4 * 4 + (a.toNat % 4 * 16 + b.toNat / 16) / 16) = a :=
        Utf8.ofNat_eq (by omega)
      have hsecond : UInt8.ofNat ((a.toNat % 4 * 16 + b.toNat / 16) % 16 * 16 +
          b.toNat % 16 * 4 / 4) = b :=
        Utf8.ofNat_eq (by omega)
      rw [decodeFrom_first (by omega), decodeFrom_second (by omega), decodeFrom_third (by omega),
        hfirst, hsecond]
      rfl
  | case4 a b c bs ih =>
      have ha := a.toNat_lt
      have hb := b.toNat_lt
      have hc := c.toNat_lt
      have hfirst : UInt8.ofNat (a.toNat / 4 * 4 + (a.toNat % 4 * 16 + b.toNat / 16) / 16) = a :=
        Utf8.ofNat_eq (by omega)
      have hsecond : UInt8.ofNat ((a.toNat % 4 * 16 + b.toNat / 16) % 16 * 16 +
          (b.toNat % 16 * 4 + c.toNat / 64) / 4) = b :=
        Utf8.ofNat_eq (by omega)
      have hthird : UInt8.ofNat ((b.toNat % 16 * 4 + c.toNat / 64) % 4 * 64 + c.toNat % 64) = c :=
        Utf8.ofNat_eq (by omega)
      rw [decodeFrom_first (by omega), decodeFrom_second (by omega), decodeFrom_third (by omega),
        decodeFrom_fourth (by omega), hfirst, hsecond, hthird, ih]
      rfl

theorem map_ne_notAscii {x : Except Fault Bytes} (h : x ≠ .error .notAscii) (b : UInt8) :
    x.map (b :: ·) ≠ .error .notAscii := by
  cases x with
  | ok bs => simp [Except.map]
  | error f => simpa [Except.map] using h

theorem decodeFrom_ne_notAscii (filled bits pads : Nat) (cs : List Char) :
    decodeFrom filled bits pads cs ≠ .error .notAscii := by
  induction cs generalizing filled bits pads with
  | nil =>
      rw [decodeFrom]
      split
      · simp
      · split <;> simp
  | cons c cs ih =>
      rw [decodeFrom]
      split
      · split
        · exact ih _ _ _
        · split
          · simp
          · exact ih _ _ _
      · cases value? c with
        | none => exact ih _ _ _
        | some v =>
            dsimp only
            split
            · exact ih _ _ _
            · split
              · exact map_ne_notAscii (ih _ _ _) _
              · split <;> exact map_ne_notAscii (ih _ _ _) _

theorem decode_eq_notAscii_iff : decode cs = .error .notAscii ↔ ∃ c ∈ cs, 0x80 ≤ c.toNat := by
  rw [decode]
  split
  · next h => simpa using h
  · next h =>
      refine iff_of_false (decodeFrom_ne_notAscii 0 0 0 cs) ?_
      simpa using h

theorem decode_of_spells (h : Spells cs bs) : decode cs = .ok bs := by
  obtain ⟨hascii, hspells⟩ := h
  have hnone : cs.any (fun c => 0x80 ≤ c.toNat) = false := by
    simpa using hascii
  rw [decode, hnone, ← decodeFrom_filter, hspells]
  exact decodeFrom_encode bs

end

end SchemaDiagram.Base64
