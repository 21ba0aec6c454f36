import Mathlib.Tactic.IntervalCases
import SchemaDiagram.Encoding.Percent
import SchemaDiagram.Proofs.Encoding.Utf8

namespace SchemaDiagram.Percent

section

variable {safe cs : List Char} {c d : Char} {n : Nat}

theorem hexValue?_upperHexDigit (h : n < 16) : hexValue? (upperHexDigit n) = some n := by
  interval_cases n <;> decide

theorem isUnreserved_upperHexDigit (h : n < 16) : isUnreserved (upperHexDigit n) = true := by
  interval_cases n <;> decide

theorem mem_escapeByte {b : UInt8} (h : d ∈ escapeByte b) : d = '%' ∨ isUnreserved d = true := by
  have hb : b.toNat < 0x100 := b.toNat_lt
  simp only [escapeByte, List.mem_cons, List.not_mem_nil, or_false] at h
  rcases h with rfl | rfl | rfl
  · exact .inl rfl
  · exact .inr (isUnreserved_upperHexDigit (by omega))
  · exact .inr (isUnreserved_upperHexDigit (by omega))

theorem mem_quoteChar (h : d ∈ quoteChar safe c) : d = '%' ∨ isUnreserved d = true ∨ d ∈ safe := by
  rw [quoteChar] at h
  split at h
  · next hplain =>
      obtain rfl := List.mem_singleton.1 h
      rw [Bool.or_eq_true, List.contains_iff_mem] at hplain
      exact .inr hplain
  · obtain ⟨b, -, hd⟩ := List.mem_flatMap.1 h
    exact (mem_escapeByte hd).imp_right .inl

theorem mem_quote (h : d ∈ quote safe cs) : d = '%' ∨ isUnreserved d = true ∨ d ∈ safe := by
  obtain ⟨c, -, hd⟩ := List.mem_flatMap.1 h
  exact mem_quoteChar hd

theorem notMem_quote (hd : d ≠ '%') (hreserved : isUnreserved d = false) (hsafe : d ∉ safe) :
    d ∉ quote safe cs := by
  intro h
  rcases mem_quote h with hd' | hunreserved | hmem
  · exact hd hd'
  · rw [hreserved] at hunreserved
    exact Bool.false_ne_true hunreserved
  · exact hsafe hmem

theorem unquoteBytes_of_ne (h : c ≠ '%') (rest : List Char) :
    unquoteBytes (c :: rest) = Utf8.encodeChar c ++ unquoteBytes rest := by
  rw [unquoteBytes]
  exact fun _ _ _ hc => absurd hc h

theorem unquoteBytes_escapeByte (b : UInt8) (rest : List Char) :
    unquoteBytes (escapeByte b ++ rest) = b :: unquoteBytes rest := by
  have hb : b.toNat < 0x100 := b.toNat_lt
  have hbyte : b.toNat / 16 * 16 + b.toNat % 16 = b.toNat := by omega
  simp only [escapeByte, List.cons_append, List.nil_append, unquoteBytes,
    hexValue?_upperHexDigit (show b.toNat / 16 < 16 by omega),
    hexValue?_upperHexDigit (show b.toNat % 16 < 16 by omega), hbyte, UInt8.ofNat_toNat]

theorem unquoteBytes_flatMap (bs : Bytes) (rest : List Char) :
    unquoteBytes (bs.flatMap escapeByte ++ rest) = bs ++ unquoteBytes rest := by
  induction bs with
  | nil => rfl
  | cons b bs ih =>
      rw [List.flatMap_cons, List.append_assoc, unquoteBytes_escapeByte, ih, List.cons_append]

theorem unquoteBytes_quoteChar (h : '%' ∉ safe) (c : Char) (rest : List Char) :
    unquoteBytes (quoteChar safe c ++ rest) = Utf8.encodeChar c ++ unquoteBytes rest := by
  rw [quoteChar]
  split
  · next hplain =>
      rw [Bool.or_eq_true, List.contains_iff_mem] at hplain
      refine unquoteBytes_of_ne ?_ rest
      rintro rfl
      exact hplain.elim (by decide) h
  · exact unquoteBytes_flatMap _ rest

theorem unquoteBytes_quote (h : '%' ∉ safe) (cs : List Char) :
    unquoteBytes (quote safe cs) = Utf8.encode cs := by
  induction cs with
  | nil => rfl
  | cons c cs ih =>
      rw [quote, List.flatMap_cons, ← quote, unquoteBytes_quoteChar h, ih, Utf8.encode, Utf8.encode,
        List.flatMap_cons]

theorem decode_unquoteBytes_quote (h : '%' ∉ safe) (cs : List Char) :
    Utf8.decode (unquoteBytes (quote safe cs)) = .ok cs := by
  rw [unquoteBytes_quote h, Utf8.decode_encode]

end

end SchemaDiagram.Percent
