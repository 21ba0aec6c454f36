import SchemaDiagram.Platform

namespace SchemaDiagram

abbrev Bytes := List UInt8

namespace Utf8

def encodeChar (c : Char) : Bytes :=
  let n := c.toNat
  if n < 0x80 then [.ofNat n]
  else if n < 0x800 then [.ofNat (0xC0 + n / 0x40), .ofNat (0x80 + n % 0x40)]
  else if n < 0x10000 then
    [.ofNat (0xE0 + n / 0x1000), .ofNat (0x80 + n / 0x40 % 0x40), .ofNat (0x80 + n % 0x40)]
  else
    [.ofNat (0xF0 + n / 0x40000), .ofNat (0x80 + n / 0x1000 % 0x40),
      .ofNat (0x80 + n / 0x40 % 0x40), .ofNat (0x80 + n % 0x40)]

def encode (cs : List Char) : Bytes :=
  cs.flatMap encodeChar

inductive Problem where
  | invalidStart
  | invalidContinuation
  | unexpectedEnd
  deriving DecidableEq, Repr

def Problem.text : Problem → String
  | .invalidStart => "invalid start byte"
  | .invalidContinuation => "invalid continuation byte"
  | .unexpectedEnd => "unexpected end of data"

structure Fault where
  first : UInt8
  position : Nat
  length : Nat
  problem : Problem
  deriving DecidableEq, Repr

def hexByte (b : UInt8) : String :=
  let digits := Nat.toDigits 16 b.toNat
  String.ofList (if digits.length < 2 then '0' :: digits else digits)

def Fault.message (f : Fault) : String :=
  let place :=
    if f.length = 1 then
      "byte 0x" ++ hexByte f.first ++ " in position " ++ Nat.repr f.position
    else
      "bytes in position " ++ Nat.repr f.position ++ "-" ++ Nat.repr (f.position + f.length - 1)
  "'utf-8' codec can't decode " ++ place ++ ": " ++ f.problem.text

/-- A character of which some bytes are read and `owed` are still to come; the next one lies between
`low` and `high`. -/
structure Pending where
  first : UInt8
  position : Nat
  taken : Nat
  value : Nat
  owed : Nat
  low : Nat
  high : Nat
  deriving DecidableEq, Repr

def lead? (b : Nat) : Option (Nat × Nat × Nat × Nat) :=
  if b < 0xC2 then none
  else if b < 0xE0 then some (b - 0xC0, 1, 0x80, 0xBF)
  else if b = 0xE0 then some (b - 0xE0, 2, 0xA0, 0xBF)
  else if b = 0xED then some (b - 0xE0, 2, 0x80, 0x9F)
  else if b < 0xF0 then some (b - 0xE0, 2, 0x80, 0xBF)
  else if b = 0xF0 then some (b - 0xF0, 3, 0x90, 0xBF)
  else if b < 0xF4 then some (b - 0xF0, 3, 0x80, 0xBF)
  else if b = 0xF4 then some (b - 0xF0, 3, 0x80, 0x8F)
  else none

def decodeFrom (position : Nat) : Option Pending → Bytes → Except Fault (List Char)
  | none, [] => .ok []
  | some p, [] => .error ⟨p.first, p.position, p.taken, .unexpectedEnd⟩
  | none, b :: bs =>
      if b.toNat < 0x80 then
        (decodeFrom (position + 1) none bs).map (Char.ofNat b.toNat :: ·)
      else match lead? b.toNat with
        | none => .error ⟨b, position, 1, .invalidStart⟩
        | some (value, owed, low, high) =>
            decodeFrom (position + 1) (some ⟨b, position, 1, value, owed, low, high⟩) bs
  | some p, b :: bs =>
      if p.low ≤ b.toNat && b.toNat ≤ p.high then
        let value := p.value * 0x40 + (b.toNat - 0x80)
        if p.owed ≤ 1 then
          (decodeFrom (position + 1) none bs).map (Char.ofNat value :: ·)
        else
          decodeFrom (position + 1)
            (some { p with
              taken := p.taken + 1, value, owed := p.owed - 1, low := 0x80, high := 0xBF })
            bs
      else .error ⟨p.first, p.position, p.taken, .invalidContinuation⟩

def decode (bs : Bytes) : Except Fault (List Char) :=
  decodeFrom 0 none bs

section

variable [Platform]

def encodingFault? (cs : List Char) : Option String :=
  let rest := cs.dropWhile (!Platform.isSurrogate ·)
  let run := (rest.takeWhile Platform.isSurrogate).filterMap Platform.surrogate?
  let position := cs.length - rest.length
  let said (place : String) :=
    some ("'utf-8' codec can't encode " ++ place ++ ": surrogates not allowed")
  match run with
  | [] => none
  | [n] =>
      said ("character '\\u" ++ String.ofList (Nat.toDigits 16 n) ++ "' in position " ++
        Nat.repr position)
  | _ =>
      said ("characters in position " ++ Nat.repr position ++ "-" ++
        Nat.repr (position + run.length - 1))

end

end Utf8

end SchemaDiagram
