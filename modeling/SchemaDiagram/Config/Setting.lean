import SchemaDiagram.Config.Basic
import SchemaDiagram.Decimal.Numeral
import SchemaDiagram.Decimal.Text
import SchemaDiagram.Yaml.Value

namespace SchemaDiagram.Config

open SchemaDiagram.Yaml

inductive NumberFault where
  | beyondFloat
  | beyondText
  deriving DecidableEq, Repr

def NumberFault.message : NumberFault → String
  | .beyondFloat => "int too large to convert to float"
  | .beyondText =>
      "Exceeds the limit (4300 digits) for integer string conversion; " ++
        "use sys.set_int_max_str_digits() to increase the limit"

namespace Setting

def section? : Value → List (Value × Value)
  | .map entries => entries
  | _ => []

def intText? (n : Int) : Except NumberFault String :=
  if n.natAbs < Nat.pow 10 Numeral.digitLimit then .ok (String.ofList (intText n))
  else .error .beyondText

def text? : Value → Except NumberFault (Option String)
  | .bool b => .ok (some (if b then "True" else "False"))
  | .int n => (intText? n).map some
  | .float x => .ok (some (String.ofList x.text))
  | .str s => .ok (some s)
  | _ => .ok none

def float? : Value → Except NumberFault (Option Binary64)
  | .int n =>
      match Binary64.ofInt n with
      | .infinite _ => .error .beyondFloat
      | x => .ok (some x)
  | .float x => .ok (some x)
  | .str s => .ok (Numeral.float? s.toList)
  | _ => .ok none

def positive? (n : Int) : Option Nat :=
  if 0 < n then some n.toNat else none

def count? : Value → Option Nat
  | .int n => positive? n
  | .str s => (Numeral.int? s.toList).bind positive?
  | _ => none

theorem count?_pos {v : Value} {n : Nat} (h : count? v = some n) : 0 < n := by
  have hpos : ∀ {k : Int}, positive? k = some n → 0 < n := by
    intro k hk
    simp only [positive?] at hk
    split at hk
    · next h0 =>
        rw [← Option.some.inj hk]
        omega
    · simp at hk
  cases v with
  | int k => exact hpos h
  | str s =>
      obtain ⟨k, -, hk⟩ := Option.bind_eq_some_iff.1 h
      exact hpos hk
  | _ => simp [count?] at h

def itemTexts : List Value → Except NumberFault (List String)
  | [] => .ok []
  | v :: vs => do
      let first ← text? v
      let rest ← itemTexts vs
      return first.toList ++ rest

def texts : Value → Except NumberFault (List String)
  | .str s => .ok [s]
  | .list items => itemTexts items
  | .bytes bs => .ok (bs.map fun b => Nat.repr b.toNat)
  | _ => .ok []

def orElse (fallback found : List String) : List String :=
  if found.isEmpty then fallback else found

end Setting

end SchemaDiagram.Config
