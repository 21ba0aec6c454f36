import SchemaDiagram.Text.Blank
import SchemaDiagram.Text.Word

namespace SchemaDiagram.Text

/-- A recogniser sees the character before its place and the text from there on; it gives the value
it read and the text it leaves. -/
abbrev Recogniser (α : Type) := Option Char → List Char → Option (α × List Char)

/-- The places, left to right, where the recogniser succeeds, with what it read there. After a
success the search goes on behind the text that was read; `skip` counts what is left of it. -/
def scan {α : Type} (read : Recogniser α) : Nat → Nat → Option Char → List Char → List (Nat × α)
  | _, _, _, [] => []
  | skip + 1, at_, _, c :: cs => scan read skip (at_ + 1) (some c) cs
  | 0, at_, before, c :: cs =>
      match read before (c :: cs) with
      | none => scan read 0 (at_ + 1) (some c) cs
      | some (a, rest) =>
          (at_, a) :: scan read (cs.length - rest.length) (at_ + 1) (some c) cs

def findAll {α : Type} (read : Recogniser α) (cs : List Char) : List (Nat × α) :=
  scan read 0 0 none cs

def findFrom? {α : Type} (read : Recogniser α) (before : Option Char) : List Char → Option α
  | [] => (read before []).map Prod.fst
  | c :: cs =>
      match read before (c :: cs) with
      | some (a, _) => some a
      | none => findFrom? read (some c) cs

def find? {α : Type} (read : Recogniser α) (cs : List Char) : Option α :=
  findFrom? read none cs

def literal? (word : String) (cs : List Char) : Option (List Char) :=
  word.toList.isPrefixOf? cs

theorem isPrefixOf?_eq_some_iff {word cs rest : List Char} :
    word.isPrefixOf? cs = some rest ↔ word ++ rest = cs := by
  induction word generalizing cs with
  | nil =>
      change some cs = some rest ↔ rest = cs
      simp [eq_comm]
  | cons c word ih =>
      cases cs with
      | nil =>
          change none = some rest ↔ c :: word ++ rest = []
          simp
      | cons d cs =>
          change (if c == d then word.isPrefixOf? cs else none) = some rest ↔ _
          by_cases h : c = d
          · simp [h, ih]
          · simp [h]

theorem literal?_eq_some_iff {word : String} {cs rest : List Char} :
    literal? word cs = some rest ↔ word.toList ++ rest = cs :=
  isPrefixOf?_eq_some_iff

def dropLiteral (word : String) (cs : List Char) : List Char :=
  (literal? word cs).getD cs

def startsWord (before : Option Char) : Bool :=
  !before.any isWord

def endsAtWord : List Char → Bool
  | [] => true
  | c :: _ => !isWord c

def keyword? (word : String) (before : Option Char) (cs : List Char) : Option (List Char) :=
  if startsWord before then literal? word cs else none

def word? (cs : List Char) : Option (List Char × List Char) :=
  match cs.takeWhile isWord with
  | [] => none
  | name => some (name, cs.dropWhile isWord)

theorem word?_eq_some {cs name rest : List Char} (h : word? cs = some (name, rest)) :
    name ++ rest = cs ∧ name ≠ [] := by
  cases hname : cs.takeWhile isWord with
  | nil => simp [word?, hname] at h
  | cons c more =>
      simp only [word?, hname, Option.some.injEq, Prod.mk.injEq] at h
      obtain ⟨rfl, rfl⟩ := h
      exact ⟨hname ▸ List.takeWhile_append_dropWhile, by simp⟩

theorem isWord_of_word? {cs name rest : List Char} (h : word? cs = some (name, rest)) :
    name.all isWord = true := by
  cases hname : cs.takeWhile isWord with
  | nil => simp [word?, hname] at h
  | cons c more =>
      simp only [word?, hname, Option.some.injEq, Prod.mk.injEq] at h
      rw [← h.1, ← hname]
      exact List.all_takeWhile

def isQuote (c : Char) : Bool :=
  c == '\'' || c == '"'

def quote? : List Char → Option (List Char)
  | [] => none
  | c :: cs => if isQuote c then some cs else none

def quoted? (cs : List Char) : Option (List Char × List Char) := do
  let cs ← quote? cs
  let rest ← quote? (cs.dropWhile (!isQuote ·))
  return (cs.takeWhile (!isQuote ·), rest)

def quotedName? (cs : List Char) : Option (List Char × List Char) :=
  match quoted? cs with
  | some ([], _) => none
  | found => found

def occursIn (needle : List Char) : List Char → Bool
  | [] => needle.isEmpty
  | c :: cs => needle.isPrefixOf (c :: cs) || occursIn needle cs

theorem occursIn_iff {needle cs : List Char} : occursIn needle cs = true ↔ needle <:+: cs := by
  induction cs with
  | nil => simp [occursIn]
  | cons c cs ih => simp [occursIn, ih, List.infix_cons_iff]

def baseName (path : List Char) : List Char :=
  (path.reverse.takeWhile (· != '/')).reverse

theorem baseName_eq_self {path : List Char} (h : '/' ∉ path) : baseName path = path := by
  have hall : ∀ c ∈ path.reverse, (c != '/') = true := by
    intro c hc
    simp only [bne_iff_ne]
    rintro rfl
    exact h (List.mem_reverse.1 hc)
  have htake : (path.reverse ++ []).takeWhile (· != '/') =
      path.reverse ++ [].takeWhile (· != '/') :=
    List.takeWhile_append_of_pos hall
  simp only [List.append_nil, List.takeWhile_nil] at htake
  simp [baseName, htake]

end SchemaDiagram.Text
