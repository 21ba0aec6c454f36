/-!
What hangs on the interpreter and on the calls that are under way: how deep recursions may go, and
strings that are no text.
-/

namespace SchemaDiagram

/-- Recursions are given up at depths that hang on the calls under way. A string may also hold
surrogates without their partners, which are no characters: for each there is a character that stands
for it, in files as well, and that no text holds. None of ASCII does. -/
class Platform where
  jsonDepth : Nat
  nodeDepth : Nat
  chainLength : Nat
  walkDepth : Nat
  standIn : Nat → Char
  surrogate? : Char → Option Nat
  surrogate?_standIn : ∀ n, 0xD800 ≤ n → n < 0xE000 → surrogate? (standIn n) = some n
  surrogate?_of_ascii : ∀ c, c.toNat < 0x80 → surrogate? c = none

namespace Platform

def standInBase : Nat := 0x100000

theorem toNat_ofNat_add {n : Nat} (h : n < 0xE000) :
    (Char.ofNat (standInBase + n)).toNat = standInBase + n := by
  have hvalid : (standInBase + n).isValidChar := by
    right
    simp only [standInBase]
    omega
  rw [Char.ofNat, dif_pos hvalid]
  rfl

instance usual : Platform where
  jsonDepth := 975
  nodeDepth := 485
  chainLength := 970
  walkDepth := 975
  standIn n := Char.ofNat (standInBase + n)
  surrogate? c :=
    if standInBase + 0xD800 ≤ c.toNat ∧ c.toNat < standInBase + 0xE000 then
      some (c.toNat - standInBase)
    else none
  surrogate?_standIn n hlow hhigh := by
    rw [toNat_ofNat_add hhigh, if_pos (by omega), Nat.add_sub_cancel_left]
  surrogate?_of_ascii c hc := by
    refine if_neg fun hplane => ?_
    simp only [standInBase] at hplane
    omega

variable [Platform]

def isSurrogate (c : Char) : Bool :=
  (surrogate? c).isSome

def isText (cs : List Char) : Bool :=
  cs.all (!isSurrogate ·)

theorem isText_of_ascii {cs : List Char} (h : ∀ c ∈ cs, c.toNat < 0x80) : isText cs = true := by
  refine List.all_eq_true.2 fun c hc => ?_
  rw [isSurrogate, surrogate?_of_ascii c (h c hc)]
  rfl

theorem isText_append (cs ds : List Char) : isText (cs ++ ds) = (isText cs && isText ds) :=
  List.all_append

theorem isText_of_subset {cs ds : List Char} (hsubset : cs ⊆ ds) (h : isText ds = true) :
    isText cs = true :=
  List.all_eq_true.2 fun c hc => List.all_eq_true.1 h c (hsubset hc)

end Platform

end SchemaDiagram
