import SchemaDiagram.Text.Ranges

namespace SchemaDiagram.Text

def blankRanges : List (Nat × Nat) :=
  [(0x09, 0x0D), (0x1C, 0x20), (0x85, 0x85), (0xA0, 0xA0), (0x1680, 0x1680), (0x2000, 0x200A),
   (0x2028, 0x2029), (0x202F, 0x202F), (0x205F, 0x205F), (0x3000, 0x3000)]

def isBlank (c : Char) : Bool :=
  inRanges blankRanges c.toNat

def trimLeft (cs : List Char) : List Char :=
  cs.dropWhile isBlank

theorem trimLeft_trimLeft (cs : List Char) : trimLeft (trimLeft cs) = trimLeft cs := by
  induction cs with
  | nil => rfl
  | cons c cs ih =>
      by_cases h : isBlank c = true
      · simpa [trimLeft, h] using ih
      · simp [trimLeft, h]

def dropRightWhile (p : Char → Bool) (cs : List Char) : List Char :=
  (cs.reverse.dropWhile p).reverse

def trimRight (cs : List Char) : List Char :=
  dropRightWhile isBlank cs

def trim (cs : List Char) : List Char :=
  trimRight (trimLeft cs)

theorem trim_nil : trim [] = [] := rfl

def blanks1? : List Char → Option (List Char)
  | [] => none
  | c :: cs => if isBlank c then some (trimLeft cs) else none

theorem blanks1?_eq_some {cs rest : List Char} (h : blanks1? cs = some rest) :
    rest = trimLeft cs := by
  cases cs with
  | nil => simp [blanks1?] at h
  | cons c cs =>
      simp only [blanks1?] at h
      split at h
      · next hc =>
          rw [← Option.some.inj h]
          simp [trimLeft, hc]
      · simp at h

end SchemaDiagram.Text
