import SchemaDiagram.DiagramStore

namespace SchemaDiagram

structure Slot where
  repository : String
  user : String
  deriving DecidableEq

namespace Slot

def key (p : Slot) : String :=
  DiagramStore.key p.repository p.user

theorem toList_key (p : Slot) :
    p.key.toList = p.user.toList ++ ':' :: ':' :: p.repository.toList := by
  simp [key, DiagramStore.key]

/-- The user of the second slot ends behind the end of the first user, within or behind the colons
of the key, and the repository of the first one makes up for it. -/
def Shadows (p q : Slot) : Prop :=
  (q.user = p.user ++ ":" ∧ p.repository = ":" ++ q.repository) ∨
    ∃ middle, q.user = p.user ++ "::" ++ middle ∧ p.repository = middle ++ "::" ++ q.repository

theorem behind_colons {more r t : List Char} (h : ':' :: ':' :: r = more ++ ':' :: ':' :: t) :
    (more = [] ∧ r = t) ∨ (more = [':'] ∧ r = ':' :: t) ∨
      ∃ middle, more = ':' :: ':' :: middle ∧ r = middle ++ ':' :: ':' :: t := by
  match more with
  | [] => exact .inl ⟨rfl, by simpa using h⟩
  | [c] =>
      simp only [List.cons_append, List.nil_append, List.cons.injEq] at h
      obtain ⟨rfl, -, rfl⟩ := h
      exact .inr (.inl ⟨rfl, rfl⟩)
  | c :: d :: middle =>
      simp only [List.cons_append, List.cons.injEq] at h
      obtain ⟨rfl, rfl, rfl⟩ := h
      exact .inr (.inr ⟨middle, rfl, rfl⟩)

theorem eq_or_shadows {p q : Slot} {more : List Char} (huser : q.user.toList = p.user.toList ++ more)
    (h : ':' :: ':' :: p.repository.toList = more ++ ':' :: ':' :: q.repository.toList) :
    p = q ∨ p.Shadows q := by
  rcases behind_colons h with ⟨rfl, hrepository⟩ | ⟨rfl, hrepository⟩ | ⟨middle, rfl, hrepository⟩
  · left
    rw [List.append_nil] at huser
    cases p
    cases q
    simp only [mk.injEq]
    exact ⟨String.toList_inj.1 hrepository, String.toList_inj.1 huser.symm⟩
  · refine .inr (.inl ⟨String.toList_inj.1 ?_, String.toList_inj.1 ?_⟩)
    · simpa using huser
    · simpa using hrepository
  · refine .inr (.inr ⟨String.ofList middle, String.toList_inj.1 ?_, String.toList_inj.1 ?_⟩)
    · simpa using huser
    · simpa using hrepository

theorem key_of_shadows {p q : Slot} (h : p.Shadows q) : p.key = q.key := by
  refine String.toList_inj.1 ?_
  rw [toList_key, toList_key]
  rcases h with ⟨huser, hrepository⟩ | ⟨middle, huser, hrepository⟩
  · simp [huser, hrepository]
  · simp [huser, hrepository]

theorem key_eq_iff {p q : Slot} : p.key = q.key ↔ p = q ∨ p.Shadows q ∨ q.Shadows p := by
  constructor
  · intro h
    have hchars := congrArg String.toList h
    rw [toList_key, toList_key, List.append_eq_append_iff] at hchars
    rcases hchars with ⟨more, huser, hrest⟩ | ⟨more, huser, hrest⟩
    · rcases eq_or_shadows huser hrest with heq | hshadows
      · exact .inl heq
      · exact .inr (.inl hshadows)
    · rcases eq_or_shadows huser hrest with heq | hshadows
      · exact .inl heq.symm
      · exact .inr (.inr hshadows)
  · rintro (rfl | h | h)
    · rfl
    · exact key_of_shadows h
    · exact (key_of_shadows h).symm

theorem not_shadows {p q : Slot} (h : ':' ∉ q.user.toList) : ¬ p.Shadows q := by
  rintro (⟨huser, -⟩ | ⟨middle, huser, -⟩)
  · exact h (by simp [huser])
  · exact h (by simp [huser])

theorem key_inj {p q : Slot} (hp : ':' ∉ p.user.toList) (hq : ':' ∉ q.user.toList) :
    p.key = q.key ↔ p = q := by
  rw [key_eq_iff]
  simp [not_shadows hp, not_shadows hq]

end Slot

end SchemaDiagram
