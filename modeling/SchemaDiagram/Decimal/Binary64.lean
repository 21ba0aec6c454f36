/-!
Binary numbers of 64 bits, held exactly: a sign, a mantissa of 53 bits and a power of two. Every
operation is one exact computation followed by one rounding to the nearest number.
-/

namespace SchemaDiagram

/-- In `finite` the mantissa has 53 bits, or fewer when the exponent is the least one, -1074. -/
inductive Binary64 where
  | nan
  | infinite (negative : Bool)
  | finite (negative : Bool) (mantissa : Nat) (exponent : Int)
  deriving DecidableEq, Repr, Inhabited

namespace Binary64

def zero : Binary64 := .finite false 0 (-1074)

def roundDiv (num den : Nat) : Nat :=
  let q := num / den
  match compare (2 * (num % den)) den with
  | .lt => q
  | .gt => q + 1
  | .eq => if q % 2 = 0 then q else q + 1

def scaled (num den : Nat) (exponent : Int) : Nat × Nat :=
  (num * Nat.pow 2 (-exponent).toNat, den * Nat.pow 2 exponent.toNat)

def exponentFor (num den : Nat) : Int :=
  let guess : Int := max (-1074) (num.log2 - den.log2 - 53)
  let (n, d) := scaled num den guess
  if n / d < Nat.pow 2 53 then guess else guess + 1

def ofRatio (negative : Bool) (num den : Nat) : Binary64 :=
  if num = 0 then .finite negative 0 (-1074)
  else
    let e := exponentFor num den
    let (n, d) := scaled num den e
    let m := roundDiv n d
    let (m, e) := if m = Nat.pow 2 53 then (Nat.pow 2 52, e + 1) else (m, e)
    if 971 < e then .infinite negative else .finite negative m e

def ofInt (n : Int) : Binary64 :=
  ofRatio (n < 0) n.natAbs 1

/-- Decimal digits times a power of ten. Far beyond the largest and the least number the power is
not computed. -/
def ofDecimal (negative : Bool) (digits : Nat) (exponent : Int) : Binary64 :=
  let size := exponent + digits.log2 / 3
  if digits = 0 then .finite negative 0 (-1074)
  else if 1000 + digits.log2 < size then .infinite negative
  else if size < -1000 then .finite negative 0 (-1074)
  else ofRatio negative (digits * Nat.pow 10 exponent.toNat) (Nat.pow 10 (-exponent).toNat)

def ratio (mantissa : Nat) (exponent : Int) : Nat × Nat :=
  (mantissa * Nat.pow 2 exponent.toNat, Nat.pow 2 (-exponent).toNat)

def isZero : Binary64 → Bool
  | .finite _ 0 _ => true
  | _ => false

def negate : Binary64 → Binary64
  | .nan => .nan
  | .infinite s => .infinite !s
  | .finite s m e => .finite (!s) m e

def isAtLeast (x : Binary64) (bound : Nat) : Bool :=
  match x with
  | .nan => false
  | .infinite s => !s
  | .finite s m e =>
      let (n, d) := ratio m e
      bound * d ≤ (if s then 0 else n)

def toInt? : Binary64 → Option Int
  | .finite s m e =>
      let (n, d) := ratio m e
      if n % d = 0 then some (if s then -(n / d : Nat) else (n / d : Nat)) else none
  | _ => none

def signedRatio (negative : Bool) (mantissa : Nat) (exponent : Int) : Int × Nat :=
  let (n, d) := ratio mantissa exponent
  (if negative then -n else n, d)

def add : Binary64 → Binary64 → Binary64
  | .nan, _ => .nan
  | _, .nan => .nan
  | .infinite s, .infinite t => if s = t then .infinite s else .nan
  | .infinite s, _ => .infinite s
  | _, .infinite t => .infinite t
  | .finite s m e, .finite t k f =>
      let (n, d) := signedRatio s m e
      let (n', d') := signedRatio t k f
      let sum := n * d' + n' * d
      if sum = 0 then .finite (s && t) 0 (-1074) else ofRatio (sum < 0) sum.natAbs (d * d')

def scale (x : Binary64) : Binary64 → Binary64
  | .finite _ k f =>
      match x with
      | .finite s m e =>
          let (n, d) := ratio m e
          let (n', d') := ratio k f
          ofRatio s (n * n') (d * d')
      | x => x
  | _ => x

end Binary64

end SchemaDiagram
