import SchemaDiagram.Decimal.Binary64

/-!
The shortest decimal that reads back as a given binary number, and of those the nearest.
-/

namespace SchemaDiagram

namespace Binary64

/-- The numbers that round to `m * 2 ^ e`, as the numerators of their least and greatest over one
denominator, with the numerator of the number itself between them. Below a power of two the
neighbours are half as far apart. -/
structure Interval where
  low : Nat
  mid : Nat
  high : Nat
  den : Nat
  closed : Bool
  deriving DecidableEq, Repr

def interval (m : Nat) (e : Int) : Interval :=
  let (n, d) := ratio 1 (e - 2)
  { low := if m = Nat.pow 2 52 && -1074 < e then (4 * m - 1) * n else (4 * m - 2) * n
    mid := 4 * m * n
    high := (4 * m + 2) * n
    den := d
    closed := m % 2 = 0 }

def Interval.holds (i : Interval) (digits : Nat) (place : Int) : Bool :=
  let x := digits * Nat.pow 10 place.toNat * i.den
  let unit := Nat.pow 10 (-place).toNat
  if i.closed then i.low * unit ≤ x && x ≤ i.high * unit
  else i.low * unit < x && x < i.high * unit

def Interval.distance (i : Interval) (digits : Nat) (place : Int) : Nat :=
  let x := digits * Nat.pow 10 place.toNat * i.den
  let y := i.mid * Nat.pow 10 (-place).toNat
  if x ≤ y then y - x else x - y

def Interval.onGrid? (i : Interval) (place : Int) : Option Nat :=
  let below := i.mid * Nat.pow 10 (-place).toNat / (i.den * Nat.pow 10 place.toNat)
  let above := below + 1
  match i.holds below place, i.holds above place with
  | false, false => none
  | true, false => some below
  | false, true => some above
  | true, true =>
      match compare (i.distance below place) (i.distance above place) with
      | .lt => some below
      | .gt => some above
      | .eq => if below % 2 = 0 then some below else some above

def Interval.leadingPlace (i : Interval) : Int :=
  let guess : Int := ((i.mid.log2 : Int) - i.den.log2) * 30103 / 100000 - 2
  let fits (p : Int) : Bool := i.den * Nat.pow 10 p.toNat ≤ i.mid * Nat.pow 10 (-p).toNat
  if fits (guess + 4) then guess + 4
  else if fits (guess + 3) then guess + 3
  else if fits (guess + 2) then guess + 2
  else if fits (guess + 1) then guess + 1
  else guess

def Interval.refine (i : Interval) : Nat → Int → Nat × Int
  | 0, place => (i.mid * Nat.pow 10 (-place).toNat / (i.den * Nat.pow 10 place.toNat), place)
  | tries + 1, place =>
      match i.onGrid? place with
      | some digits => (digits, place)
      | none => i.refine tries (place - 1)

def shortest (m : Nat) (e : Int) : Nat × Int :=
  let i := interval m e
  i.refine 17 i.leadingPlace

end Binary64

end SchemaDiagram
