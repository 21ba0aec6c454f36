import SchemaDiagram.Decimal.Binary64
import SchemaDiagram.Text.Blank
import SchemaDiagram.Text.Digit

namespace SchemaDiagram.Numeral

open SchemaDiagram.Text

def digitLimit : Nat := 4300

def plain (c : Char) : Char :=
  if c.toNat < 0x80 then c
  else if isBlank c then ' '
  else match digitValue? c with
    | some d => Char.ofNat (0x30 + d)
    | none => c

def isEdgeBlank (c : Char) : Bool :=
  c = ' ' || (0x09 ≤ c.toNat && c.toNat ≤ 0x0D)

def stripped (cs : List Char) : List Char :=
  dropRightWhile isEdgeBlank ((cs.map plain).dropWhile isEdgeBlank)

def dropUnderscores? (before : Bool) : List Char → Option (List Char)
  | [] => some []
  | '_' :: cs =>
      if before && cs.head?.any Char.isDigit then dropUnderscores? false cs else none
  | c :: cs => (dropUnderscores? c.isDigit cs).map (c :: ·)

def signed : List Char → Bool × List Char
  | '-' :: cs => (true, cs)
  | '+' :: cs => (false, cs)
  | cs => (false, cs)

def digitsValue (base : Nat) (cs : List Char) : Nat :=
  cs.foldl (fun n c => n * base + (c.toNat - 0x30)) 0

def nat? (cs : List Char) : Option Nat :=
  if cs.isEmpty || !cs.all Char.isDigit then none else some (digitsValue 10 cs)

inductive IntegerProblem where
  | invalid
  | tooManyDigits (count : Nat)
  deriving DecidableEq, Repr

def digitOf? (base : Nat) (c : Char) : Option Nat :=
  let value? : Option Nat :=
    if c.isDigit then some (c.toNat - 0x30)
    else if 'a' ≤ c && c ≤ 'z' then some (c.toNat - 0x57)
    else if 'A' ≤ c && c ≤ 'Z' then some (c.toNat - 0x37)
    else none
  value?.filter (· < base)

def baseMark? : Nat → Option Char
  | 2 => some 'b'
  | 8 => some 'o'
  | 16 => some 'x'
  | _ => none

def dropBaseMark (base : Nat) : List Char → List Char
  | '0' :: c :: cs =>
      if baseMark? base = some c.toLower then
        match cs with
        | '_' :: cs => cs
        | cs => cs
      else '0' :: c :: cs
  | cs => cs

def isDigitOrUnderscore (base : Nat) (c : Char) : Bool :=
  c = '_' || (digitOf? base c).isSome

def isWellJoined : List Char → Bool
  | [] => true
  | '_' :: _ => false
  | _ :: cs => follows cs
where
  follows : List Char → Bool
    | [] => true
    | ['_'] => false
    | '_' :: '_' :: _ => false
    | _ :: cs => follows cs

def magnitude (base : Nat) (run : List Char) : Except IntegerProblem Nat :=
  let digits := run.filterMap (digitOf? base)
  if !isWellJoined run then .error .invalid
  else if digitLimit < digits.length && (baseMark? base).isNone then
    .error (.tooManyDigits digits.length)
  else if digits.isEmpty then .error .invalid
  else .ok (digits.foldl (fun n d => n * base + d) 0)

def integer (base : Nat) (cs : List Char) : Except IntegerProblem Int := do
  let (negative, body) := signed ((cs.map plain).dropWhile isEdgeBlank)
  let body := dropBaseMark base body
  let n ← magnitude base (body.takeWhile (isDigitOrUnderscore base))
  if (body.dropWhile (isDigitOrUnderscore base)).all isEdgeBlank then
    return if negative then -(n : Int) else n
  else throw .invalid

def int? (cs : List Char) : Option Int :=
  (integer 10 cs).toOption

def exponent? : List Char → Option Int
  | [] => some 0
  | e :: cs =>
      if e = 'e' || e = 'E' then
        let (negative, body) := signed cs
        (nat? body).map fun n => if negative then -(n : Int) else n
      else none

def decimal? (negative : Bool) (cs : List Char) : Option Binary64 := do
  let whole := cs.takeWhile Char.isDigit
  let cs := cs.dropWhile Char.isDigit
  let (fraction, cs) := match cs with
    | '.' :: cs => (cs.takeWhile Char.isDigit, cs.dropWhile Char.isDigit)
    | cs => ([], cs)
  let e ← exponent? cs
  if (whole ++ fraction).isEmpty then none
  else some (.ofDecimal negative (digitsValue 10 (whole ++ fraction)) (e - fraction.length))

def named? (negative : Bool) (cs : List Char) : Option Binary64 :=
  match String.ofList (cs.map Char.toLower) with
  | "inf" => some (.infinite negative)
  | "infinity" => some (.infinite negative)
  | "nan" => some .nan
  | _ => none

def float? (cs : List Char) : Option Binary64 := do
  let body ← dropUnderscores? false (stripped cs)
  let (negative, body) := signed body
  (named? negative body).orElse fun _ => decimal? negative body

end SchemaDiagram.Numeral
