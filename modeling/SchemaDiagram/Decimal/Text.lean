import SchemaDiagram.Decimal.Shortest

namespace SchemaDiagram

def natText (n : Nat) : List Char :=
  Nat.toDigits 10 n

def intText (n : Int) : List Char :=
  if n < 0 then '-' :: natText n.natAbs else natText n.natAbs

namespace Binary64

def dropZeros : Nat → Nat × Int → Nat × Int
  | 0, x => x
  | n + 1, (digits, place) =>
      if digits % 10 = 0 && digits != 0 then dropZeros n (digits / 10, place + 1)
      else (digits, place)

def exponentText (e : Int) : List Char :=
  let digits := natText e.natAbs
  'e' :: (if e < 0 then '-' else '+') :: (if digits.length < 2 then '0' :: digits else digits)

def layout (digits : List Char) (point : Int) : List Char :=
  if -4 < point && point ≤ 16 then
    if point ≤ 0 then '0' :: '.' :: List.replicate (-point).toNat '0' ++ digits
    else
      let whole := digits.take point.toNat
      let rest := digits.drop point.toNat
      whole ++ List.replicate (point.toNat - digits.length) '0' ++ '.' ::
        (if rest.isEmpty then ['0'] else rest)
  else
    digits.take 1 ++ (if digits.length < 2 then [] else '.' :: digits.drop 1) ++
      exponentText (point - 1)

def text : Binary64 → List Char
  | .nan => ['n', 'a', 'n']
  | .infinite s => if s then ['-', 'i', 'n', 'f'] else ['i', 'n', 'f']
  | .finite s m e =>
      let body :=
        if m = 0 then ['0', '.', '0']
        else
          let (digits, place) := dropZeros 20 (shortest m e)
          let shown := natText digits
          layout shown (place + shown.length)
      if s then '-' :: body else body

end Binary64

end SchemaDiagram
