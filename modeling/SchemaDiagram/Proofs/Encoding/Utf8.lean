import Mathlib.Data.List.TakeWhile
import SchemaDiagram.Encoding.Utf8

namespace SchemaDiagram

theorem toNat_bounds (c : Char) : c.toNat < 0xD800 ∨ 0xE000 ≤ c.toNat ∧ c.toNat < 0x110000 := by
  have hvalid : c.toNat < 0xD800 ∨ 0xDFFF < c.toNat ∧ c.toNat < 0x110000 := c.valid
  omega

namespace Utf8

section

variable {n position value owed low high : Nat} {bs : Bytes}

theorem toNat_ofNat (h : n < 0x100) : (UInt8.ofNat n).toNat = n := by
  rw [UInt8.toNat_ofNat', Nat.mod_eq_of_lt h]

theorem lead?_two (hlow : 0x80 ≤ n) (hhigh : n < 0x800) :
    lead? (0xC0 + n / 0x40) = some (n / 0x40, 1, 0x80, 0xBF) := by
  have hvalue : 0xC0 + n / 0x40 - 0xC0 = n / 0x40 := by omega
  rw [lead?, if_neg (by omega), if_pos (by omega), hvalue]

theorem lead?_three (hlow : 0x800 ≤ n) (hhigh : n < 0xD800 ∨ 0xE000 ≤ n ∧ n < 0x10000) :
    ∃ low high, lead? (0xE0 + n / 0x1000) = some (n / 0x1000, 2, low, high) ∧
      low ≤ 0x80 + n / 0x40 % 0x40 ∧ 0x80 + n / 0x40 % 0x40 ≤ high := by
  have hvalue : 0xE0 + n / 0x1000 - 0xE0 = n / 0x1000 := by omega
  rw [lead?, if_neg (by omega), if_neg (by omega), hvalue]
  by_cases hfirst : 0xE0 + n / 0x1000 = 0xE0
  · exact ⟨0xA0, 0xBF, if_pos hfirst, by omega, by omega⟩
  rw [if_neg hfirst]
  by_cases hlast : 0xE0 + n / 0x1000 = 0xED
  · exact ⟨0x80, 0x9F, if_pos hlast, by omega, by omega⟩
  · rw [if_neg hlast]
    exact ⟨0x80, 0xBF, if_pos (by omega), by omega, by omega⟩

theorem lead?_four (hlow : 0x10000 ≤ n) (hhigh : n < 0x110000) :
    ∃ low high, lead? (0xF0 + n / 0x40000) = some (n / 0x40000, 3, low, high) ∧
      low ≤ 0x80 + n / 0x1000 % 0x40 ∧ 0x80 + n / 0x1000 % 0x40 ≤ high := by
  have hvalue : 0xF0 + n / 0x40000 - 0xF0 = n / 0x40000 := by omega
  rw [lead?, if_neg (by omega), if_neg (by omega), if_neg (by omega), if_neg (by omega),
    if_neg (by omega), hvalue]
  by_cases hfirst : 0xF0 + n / 0x40000 = 0xF0
  · exact ⟨0x90, 0xBF, if_pos hfirst, by omega, by omega⟩
  rw [if_neg hfirst]
  by_cases hlast : 0xF0 + n / 0x40000 < 0xF4
  · exact ⟨0x80, 0xBF, if_pos hlast, by omega, by omega⟩
  · rw [if_neg hlast]
    exact ⟨0x80, 0x8F, if_pos (by omega), by omega, by omega⟩

theorem decodeFrom_ascii (h : n < 0x80) (position : Nat) (bs : Bytes) :
    decodeFrom position none (.ofNat n :: bs) =
      (decodeFrom (position + 1) none bs).map (Char.ofNat n :: ·) := by
  rw [decodeFrom, toNat_ofNat (by omega), if_pos h]

theorem decodeFrom_lead (hbyte : n < 0x100) (hascii : 0x80 ≤ n)
    (h : lead? n = some (value, owed, low, high)) (position : Nat) (bs : Bytes) :
    decodeFrom position none (.ofNat n :: bs) = decodeFrom (position + 1)
      (some ⟨.ofNat n, position, 1, value, owed, low, high⟩) bs := by
  rw [decodeFrom, toNat_ofNat hbyte, if_neg (by omega), h]

theorem decodeFrom_last {p : Pending} (howed : p.owed = 1) (hlow : p.low ≤ 0x80 + n % 0x40)
    (hhigh : 0x80 + n % 0x40 ≤ p.high) (hvalue : p.value = n / 0x40) (position : Nat) (bs : Bytes) :
    decodeFrom position (some p) (.ofNat (0x80 + n % 0x40) :: bs) =
      (decodeFrom (position + 1) none bs).map (Char.ofNat n :: ·) := by
  have hjoined : p.value * 0x40 + (0x80 + n % 0x40 - 0x80) = n := by omega
  rw [decodeFrom, toNat_ofNat (by omega)]
  simp only [hlow, hhigh, decide_true, Bool.and_self, if_true, hjoined]
  rw [if_pos (by omega)]

theorem decodeFrom_more {p : Pending} (howed : 1 < p.owed) (hlow : p.low ≤ 0x80 + n % 0x40)
    (hhigh : 0x80 + n % 0x40 ≤ p.high) (hvalue : p.value = n / 0x40) (position : Nat) (bs : Bytes) :
    decodeFrom position (some p) (.ofNat (0x80 + n % 0x40) :: bs) = decodeFrom (position + 1)
      (some ⟨p.first, p.position, p.taken + 1, n, p.owed - 1, 0x80, 0xBF⟩) bs := by
  have hjoined : p.value * 0x40 + (0x80 + n % 0x40 - 0x80) = n := by omega
  rw [decodeFrom, toNat_ofNat (by omega)]
  simp only [hlow, hhigh, decide_true, Bool.and_self, if_true, hjoined]
  rw [if_neg (by omega)]

end

theorem decodeFrom_encodeChar (c : Char) (position : Nat) (bs : Bytes) :
    ∃ behind, decodeFrom position none (encodeChar c ++ bs) =
      (decodeFrom behind none bs).map (c :: ·) := by
  have hbounds := toNat_bounds c
  obtain ⟨n, hn⟩ : ∃ n, c.toNat = n := ⟨_, rfl⟩
  have hc : c = Char.ofNat n := by rw [← hn, Char.ofNat_toNat]
  have hlow (m : Nat) : 0x80 ≤ 0x80 + m % 0x40 := Nat.le_add_right _ _
  have hhigh (m : Nat) : 0x80 + m % 0x40 ≤ 0xBF := by omega
  simp only [encodeChar, hn] at hbounds ⊢
  rw [hc]
  by_cases hone : n < 0x80
  · rw [if_pos hone, List.singleton_append, decodeFrom_ascii hone]
    exact ⟨_, rfl⟩
  rw [if_neg hone]
  by_cases htwo : n < 0x800
  · rw [if_pos htwo, List.cons_append, List.singleton_append,
      decodeFrom_lead (by omega) (by omega) (lead?_two (by omega) htwo),
      decodeFrom_last rfl (hlow n) (hhigh n) rfl]
    exact ⟨_, rfl⟩
  rw [if_neg htwo]
  by_cases hthree : n < 0x10000
  · obtain ⟨low, high, hlead, hfrom, hto⟩ := lead?_three (n := n) (by omega) (by omega)
    rw [if_pos hthree, List.cons_append, List.cons_append, List.singleton_append,
      decodeFrom_lead (by omega) (by omega) hlead,
      decodeFrom_more (by simp) hfrom hto (Nat.div_div_eq_div_mul n 0x40 0x40).symm,
      decodeFrom_last rfl (hlow n) (hhigh n) rfl]
    exact ⟨_, rfl⟩
  · obtain ⟨low, high, hlead, hfrom, hto⟩ := lead?_four (n := n) (by omega) (by omega)
    rw [if_neg hthree, List.cons_append, List.cons_append, List.cons_append, List.singleton_append,
      decodeFrom_lead (by omega) (by omega) hlead,
      decodeFrom_more (by simp) hfrom hto (Nat.div_div_eq_div_mul n 0x1000 0x40).symm,
      decodeFrom_more (by simp) (hlow _) (hhigh _) (Nat.div_div_eq_div_mul n 0x40 0x40).symm,
      decodeFrom_last rfl (hlow n) (hhigh n) rfl]
    exact ⟨_, rfl⟩

theorem decodeFrom_encode (cs : List Char) (position : Nat) :
    decodeFrom position none (encode cs) = .ok cs := by
  induction cs generalizing position with
  | nil => rfl
  | cons c cs ih =>
      obtain ⟨behind, hc⟩ := decodeFrom_encodeChar c position (encode cs)
      rw [encode, List.flatMap_cons, ← encode, hc, ih]
      rfl

theorem decode_encode (cs : List Char) : decode (encode cs) = .ok cs :=
  decodeFrom_encode cs 0

theorem lead?_eq_some {n value owed low high : Nat} (h : lead? n = some (value, owed, low, high)) :
    (owed = 1 ∧ n = 0xC0 + value ∧ 2 ≤ value ∧ value < 0x20 ∧ 0x80 ≤ low ∧ high ≤ 0xBF) ∨
    (owed = 2 ∧ n = 0xE0 + value ∧ value < 0x10 ∧ 0x80 ≤ low ∧ high ≤ 0xBF ∧
      (value = 0 → 0xA0 ≤ low) ∧ (value = 0xD → high ≤ 0x9F)) ∨
    (owed = 3 ∧ n = 0xF0 + value ∧ value ≤ 4 ∧ 0x80 ≤ low ∧ high ≤ 0xBF ∧
      (value = 0 → 0x90 ≤ low) ∧ (value = 4 → high ≤ 0x8F)) := by
  -- A first byte holds the top bits of the character, and its bounds on the next byte keep out
  -- what fewer bytes would hold and what no character is.
  unfold lead? at h
  repeat' split at h
  all_goals
    simp only [Option.some.injEq, Prod.mk.injEq, reduceCtorEq] at h
  all_goals
    obtain ⟨rfl, rfl, rfl, rfl⟩ := h
    omega

theorem decodeFrom_pending {p : Pending} {position : Nat} {bs : Bytes} {cs : List Char}
    (h : decodeFrom position (some p) bs = .ok cs) :
    ∃ b rest value, bs = b :: rest ∧ p.low ≤ b.toNat ∧ b.toNat ≤ p.high ∧
      value = p.value * 0x40 + (b.toNat - 0x80) ∧
      (p.owed ≤ 1 → ∃ ds, decodeFrom (position + 1) none rest = .ok ds ∧
        cs = Char.ofNat value :: ds) ∧
      (1 < p.owed → decodeFrom (position + 1)
        (some ⟨p.first, p.position, p.taken + 1, value, p.owed - 1, 0x80, 0xBF⟩) rest = .ok cs) := by
  cases bs with
  | nil => simp [decodeFrom] at h
  | cons b rest =>
      rw [decodeFrom] at h
      split at h
      · next hbounds =>
          simp only [Bool.and_eq_true, decide_eq_true_eq] at hbounds
          refine ⟨b, rest, _, rfl, hbounds.1, hbounds.2, rfl, fun howed => ?_, fun howed => ?_⟩
          · rw [if_pos howed] at h
            cases hrest : decodeFrom (position + 1) none rest with
            | error f => simp [hrest, Except.map] at h
            | ok ds =>
                rw [hrest] at h
                exact ⟨ds, rfl, (Except.ok.inj h).symm⟩
          · rw [if_neg (by omega)] at h
            exact h
      · simp at h

theorem toNat_ofNat_char {n : Nat} (h : n < 0xD800 ∨ 0xE000 ≤ n ∧ n < 0x110000) :
    (Char.ofNat n).toNat = n := by
  have hvalid : n.isValidChar := h.imp_right fun hbounds => ⟨by omega, hbounds.2⟩
  rw [Char.ofNat, dif_pos hvalid]
  rfl

theorem ofNat_eq {b : UInt8} {n : Nat} (h : n = b.toNat) : UInt8.ofNat n = b := by
  rw [h, UInt8.ofNat_toNat]

section

variable {n : Nat} {b₀ b₁ b₂ b₃ : UInt8}

theorem encodeChar_one (h : n < 0x80) (h₀ : n = b₀.toNat) : encodeChar (Char.ofNat n) = [b₀] := by
  rw [encodeChar, toNat_ofNat_char (by omega), if_pos h, ofNat_eq h₀]

theorem encodeChar_two (hlow : 0x80 ≤ n) (hhigh : n < 0x800) (h₀ : 0xC0 + n / 0x40 = b₀.toNat)
    (h₁ : 0x80 + n % 0x40 = b₁.toNat) : encodeChar (Char.ofNat n) = [b₀, b₁] := by
  rw [encodeChar, toNat_ofNat_char (by omega), if_neg (by omega), if_pos hhigh, ofNat_eq h₀,
    ofNat_eq h₁]

theorem encodeChar_three (hlow : 0x800 ≤ n) (hhigh : n < 0xD800 ∨ 0xE000 ≤ n ∧ n < 0x10000)
    (h₀ : 0xE0 + n / 0x1000 = b₀.toNat) (h₁ : 0x80 + n / 0x40 % 0x40 = b₁.toNat)
    (h₂ : 0x80 + n % 0x40 = b₂.toNat) : encodeChar (Char.ofNat n) = [b₀, b₁, b₂] := by
  rw [encodeChar, toNat_ofNat_char (by omega), if_neg (by omega), if_neg (by omega),
    if_pos (by omega), ofNat_eq h₀, ofNat_eq h₁, ofNat_eq h₂]

theorem encodeChar_four (hlow : 0x10000 ≤ n) (hhigh : n < 0x110000)
    (h₀ : 0xF0 + n / 0x40000 = b₀.toNat) (h₁ : 0x80 + n / 0x1000 % 0x40 = b₁.toNat)
    (h₂ : 0x80 + n / 0x40 % 0x40 = b₂.toNat) (h₃ : 0x80 + n % 0x40 = b₃.toNat) :
    encodeChar (Char.ofNat n) = [b₀, b₁, b₂, b₃] := by
  rw [encodeChar, toNat_ofNat_char (by omega), if_neg (by omega), if_neg (by omega),
    if_neg (by omega), ofNat_eq h₀, ofNat_eq h₁, ofNat_eq h₂, ofNat_eq h₃]

end

theorem exists_encodeChar {position : Nat} {b : UInt8} {bs : Bytes} {cs : List Char}
    (h : decodeFrom position none (b :: bs) = .ok cs) :
    ∃ c rest behind ds, b :: bs = encodeChar c ++ rest ∧
      decodeFrom behind none rest = .ok ds ∧ cs = c :: ds := by
  rw [decodeFrom] at h
  split at h
  · next hascii =>
      cases hrest : decodeFrom (position + 1) none bs with
      | error f => simp [hrest, Except.map] at h
      | ok ds =>
          rw [hrest] at h
          refine ⟨Char.ofNat b.toNat, bs, position + 1, ds, ?_, hrest, (Except.ok.inj h).symm⟩
          rw [encodeChar_one hascii rfl, List.singleton_append]
  · split at h
    · simp at h
    · next value owed low high hlead =>
        obtain ⟨b₁, bs, n₁, rfl, hlow₁, hhigh₁, hn₁, hlast₁, hmore₁⟩ := decodeFrom_pending h
        dsimp only at hlow₁ hhigh₁ hn₁ hlast₁ hmore₁
        rcases lead?_eq_some hlead with ⟨rfl, hb⟩ | ⟨rfl, hb⟩ | ⟨rfl, hb⟩
        · obtain ⟨ds, hds, rfl⟩ := hlast₁ (Nat.le_refl 1)
          refine ⟨Char.ofNat n₁, bs, _, ds, ?_, hds, rfl⟩
          have hchar : encodeChar (Char.ofNat n₁) = [b, b₁] :=
            encodeChar_two (by omega) (by omega) (by omega) (by omega)
          rw [hchar]
          rfl
        · obtain ⟨b₂, bs, n₂, rfl, hlow₂, hhigh₂, hn₂, hlast₂, -⟩ :=
            decodeFrom_pending (hmore₁ (by omega))
          dsimp only at hlow₂ hhigh₂ hn₂ hlast₂
          obtain ⟨ds, hds, rfl⟩ := hlast₂ (Nat.le_refl 1)
          refine ⟨Char.ofNat n₂, bs, _, ds, ?_, hds, rfl⟩
          have hchar : encodeChar (Char.ofNat n₂) = [b, b₁, b₂] :=
            encodeChar_three (by omega) (by omega) (by omega) (by omega) (by omega)
          rw [hchar]
          rfl
        · obtain ⟨b₂, bs, n₂, rfl, hlow₂, hhigh₂, hn₂, -, hmore₂⟩ :=
            decodeFrom_pending (hmore₁ (by omega))
          dsimp only at hlow₂ hhigh₂ hn₂ hmore₂
          obtain ⟨b₃, bs, n₃, rfl, hlow₃, hhigh₃, hn₃, hlast₃, -⟩ :=
            decodeFrom_pending (hmore₂ (by omega))
          dsimp only at hlow₃ hhigh₃ hn₃ hlast₃
          obtain ⟨ds, hds, rfl⟩ := hlast₃ (Nat.le_refl 1)
          refine ⟨Char.ofNat n₃, bs, _, ds, ?_, hds, rfl⟩
          have hchar : encodeChar (Char.ofNat n₃) = [b, b₁, b₂, b₃] :=
            encodeChar_four (by omega) (by omega) (by omega) (by omega) (by omega) (by omega)
          rw [hchar]
          rfl

theorem encode_of_decodeFrom {cs : List Char} {position : Nat} {bs : Bytes}
    (h : decodeFrom position none bs = .ok cs) : encode cs = bs := by
  induction cs generalizing position bs with
  | nil =>
      cases bs with
      | nil => rfl
      | cons b bs =>
          obtain ⟨c, -, -, ds, -, -, hcs⟩ := exists_encodeChar h
          exact absurd hcs (by simp)
  | cons c cs ih =>
      cases bs with
      | nil => simp [decodeFrom] at h
      | cons b bs =>
          obtain ⟨d, rest, behind, ds, hbytes, hrest, hcs⟩ := exists_encodeChar h
          obtain ⟨rfl, rfl⟩ := List.cons.inj hcs
          rw [hbytes, encode, List.flatMap_cons, ← encode, ih hrest]

theorem decode_eq_ok_iff {bs : Bytes} {cs : List Char} : decode bs = .ok cs ↔ bs = encode cs := by
  constructor
  · exact fun h => (encode_of_decodeFrom h).symm
  · rintro rfl
    exact decode_encode cs

theorem encodingFault?_eq_none_iff [Platform] {cs : List Char} :
    encodingFault? cs = none ↔ Platform.isText cs = true := by
  rw [Platform.isText, List.all_eq_true, ← List.dropWhile_eq_nil_iff, encodingFault?]
  cases hrest : cs.dropWhile (!Platform.isSurrogate ·) with
  | nil => simp
  | cons c rest =>
      have hfirst := List.head_dropWhile_not (!Platform.isSurrogate ·) (hrest ▸ List.cons_ne_nil c rest)
      simp only [hrest, List.head_cons, Bool.not_eq_false'] at hfirst
      obtain ⟨n, hn⟩ := Option.isSome_iff_exists.1 hfirst
      simp only [List.takeWhile_cons, hfirst, if_true, List.filterMap_cons, hn]
      split <;> simp_all

end Utf8

end SchemaDiagram
