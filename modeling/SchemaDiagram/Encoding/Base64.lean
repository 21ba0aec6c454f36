import SchemaDiagram.Encoding.Utf8

/-!
Base 64. Reading passes over characters outside the alphabet, line breaks among them.
-/

namespace SchemaDiagram.Base64

inductive Fault where
  | notAscii
  | loneCharacter
  | missingPadding
  deriving DecidableEq, Repr

def value? (c : Char) : Option Nat :=
  let n := c.toNat
  if 0x41 ≤ n ∧ n ≤ 0x5A then some (n - 0x41)
  else if 0x61 ≤ n ∧ n ≤ 0x7A then some (n - 0x61 + 26)
  else if 0x30 ≤ n ∧ n ≤ 0x39 then some (n - 0x30 + 52)
  else if c = '+' then some 62
  else if c = '/' then some 63
  else none

/-- `filled` characters of a group of four are read, their bits not yet written being `bits`; `pads`
counts the padding since the last of them. -/
def decodeFrom (filled bits pads : Nat) : List Char → Except Fault Bytes
  | [] =>
      if filled = 0 then .ok []
      else if filled = 1 then .error .loneCharacter
      else .error .missingPadding
  | c :: cs =>
      if c = '=' then
        if filled < 2 then decodeFrom filled bits pads cs
        else if 4 ≤ filled + pads + 1 then .ok []
        else decodeFrom filled bits (pads + 1) cs
      else match value? c with
        | none => decodeFrom filled bits pads cs
        | some v =>
            if filled = 0 then decodeFrom 1 v 0 cs
            else if filled = 1 then
              (decodeFrom 2 (v % 16) 0 cs).map (.ofNat (bits * 4 + v / 16) :: ·)
            else if filled = 2 then
              (decodeFrom 3 (v % 4) 0 cs).map (.ofNat (bits * 16 + v / 4) :: ·)
            else
              (decodeFrom 0 0 0 cs).map (.ofNat (bits * 64 + v) :: ·)

def decode (cs : List Char) : Except Fault Bytes :=
  if cs.any (0x80 ≤ ·.toNat) then .error .notAscii else decodeFrom 0 0 0 cs

def digit (n : Nat) : Char :=
  if n < 26 then Char.ofNat (0x41 + n)
  else if n < 52 then Char.ofNat (0x61 + n - 26)
  else if n < 62 then Char.ofNat (0x30 + n - 52)
  else if n = 62 then '+'
  else '/'

def encode : Bytes → List Char
  | [] => []
  | [a] => [digit (a.toNat / 4), digit (a.toNat % 4 * 16), '=', '=']
  | [a, b] =>
      [digit (a.toNat / 4), digit (a.toNat % 4 * 16 + b.toNat / 16), digit (b.toNat % 16 * 4), '=']
  | a :: b :: c :: bs =>
      digit (a.toNat / 4) :: digit (a.toNat % 4 * 16 + b.toNat / 16) ::
        digit (b.toNat % 16 * 4 + c.toNat / 64) :: digit (c.toNat % 64) :: encode bs

end SchemaDiagram.Base64
