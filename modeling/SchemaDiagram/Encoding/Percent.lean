import SchemaDiagram.Encoding.Utf8

namespace SchemaDiagram.Percent

def isUnreserved (c : Char) : Bool :=
  c.isAlphanum || c = '_' || c = '.' || c = '-' || c = '~'

def upperHexDigit (n : Nat) : Char :=
  if n < 10 then Char.ofNat (0x30 + n) else Char.ofNat (0x37 + n)

def escapeByte (b : UInt8) : List Char :=
  ['%', upperHexDigit (b.toNat / 16), upperHexDigit (b.toNat % 16)]

def quoteChar (safe : List Char) (c : Char) : List Char :=
  if isUnreserved c || safe.contains c then [c] else (Utf8.encodeChar c).flatMap escapeByte

def quote (safe cs : List Char) : List Char :=
  cs.flatMap (quoteChar safe)

def hexValue? (c : Char) : Option Nat :=
  let n := c.toNat
  if 0x30 ≤ n ∧ n ≤ 0x39 then some (n - 0x30)
  else if 0x41 ≤ n ∧ n ≤ 0x46 then some (n - 0x37)
  else if 0x61 ≤ n ∧ n ≤ 0x66 then some (n - 0x57)
  else none

def unquoteBytes : List Char → Bytes
  | [] => []
  | '%' :: a :: b :: cs =>
      match hexValue? a, hexValue? b with
      | some x, some y => .ofNat (x * 16 + y) :: unquoteBytes cs
      | _, _ => .ofNat 0x25 :: unquoteBytes (a :: b :: cs)
  | c :: cs => Utf8.encodeChar c ++ unquoteBytes cs

end SchemaDiagram.Percent
