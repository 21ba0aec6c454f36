import Mathlib.Data.List.Induction
import SchemaDiagram.Ignore.Rules

namespace SchemaDiagram.IgnoreRules

def LeavesOut (rs : IgnoreRules) (path : List Char) (isDirectory : Bool) : Prop :=
  ∃ before rule after, rs.rules = before ++ rule :: after ∧
    rule.applies path isDirectory = true ∧ rule.negated = false ∧
    ∀ later ∈ after, later.applies path isDirectory = false

theorem leavesOut_concat {rules : List Ignore.Rule} {rule : Ignore.Rule} {path : List Char}
    {isDirectory : Bool} :
    LeavesOut ⟨rules ++ [rule]⟩ path isDirectory ↔
      rule.applies path isDirectory = true ∧ rule.negated = false ∨
        rule.applies path isDirectory = false ∧ LeavesOut ⟨rules⟩ path isDirectory := by
  constructor
  · rintro ⟨before, last, after, hrules, happlies, hnegated, hafter⟩
    rcases List.eq_nil_or_concat after with rfl | ⟨init, final, rfl⟩
    · obtain ⟨-, hlast⟩ := List.append_inj' hrules rfl
      obtain rfl := List.singleton_inj.1 hlast
      exact .inl ⟨happlies, hnegated⟩
    · rw [List.concat_eq_append] at hrules hafter
      rw [← List.cons_append, ← List.append_assoc] at hrules
      obtain ⟨rfl, hfinal⟩ := List.append_inj' hrules rfl
      obtain rfl := List.singleton_inj.1 hfinal
      refine .inr ⟨hafter rule (by simp), before, last, init, rfl, happlies, hnegated, ?_⟩
      exact fun later hlater => hafter later (List.mem_append_left _ hlater)
  · rintro (⟨happlies, hnegated⟩ | ⟨hnot, before, last, after, hrules, happlies, hnegated, hafter⟩)
    · exact ⟨rules, rule, [], rfl, happlies, hnegated, fun _ h => absurd h List.not_mem_nil⟩
    · obtain rfl : rules = before ++ last :: after := hrules
      refine ⟨before, last, after ++ [rule], by simp, happlies, hnegated, ?_⟩
      intro later hlater
      rcases List.mem_append.1 hlater with hold | hnew
      · exact hafter later hold
      · obtain rfl := List.mem_singleton.1 hnew
        exact hnot

theorem ignores_iff (rs : IgnoreRules) (path : List Char) (isDirectory : Bool) :
    rs.ignores path isDirectory = true ↔ rs.LeavesOut path isDirectory := by
  obtain ⟨rules⟩ := rs
  induction rules using List.reverseRecOn with
  | nil =>
      rw [ignores_nil]
      refine iff_of_false Bool.false_ne_true ?_
      rintro ⟨before, rule, after, hrules, -⟩
      simp at hrules
  | append_singleton rules rule ih =>
      rw [ignores_append_single, leavesOut_concat]
      cases happlies : rule.applies path isDirectory <;> simp [ih]

end SchemaDiagram.IgnoreRules
