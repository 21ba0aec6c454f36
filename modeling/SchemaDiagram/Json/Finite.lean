import SchemaDiagram.Json.Basic

namespace SchemaDiagram.Json

def isFinite : Json → Bool
  | .float (.finite _ _ _) => true
  | .float _ => false
  | .arr items => areFinite items
  | .obj members => haveFinite members
  | _ => true
where
  areFinite : List Json → Bool
    | [] => true
    | v :: vs => isFinite v && areFinite vs
  haveFinite : List (String × Json) → Bool
    | [] => true
    | (_, v) :: ms => isFinite v && haveFinite ms

def finite : Json → Json
  | .float (.finite s m e) => .float (.finite s m e)
  | .float _ => .null
  | .arr items => .arr (finiteItems items)
  | .obj members => .obj (finiteMembers members)
  | v => v
where
  finiteItems : List Json → List Json
    | [] => []
    | v :: vs => finite v :: finiteItems vs
  finiteMembers : List (String × Json) → List (String × Json)
    | [] => []
    | (k, v) :: ms => (k, finite v) :: finiteMembers ms

mutual

theorem finite_of_isFinite : ∀ {v : Json}, v.isFinite = true → v.finite = v
  | .null, _ => rfl
  | .bool _, _ => rfl
  | .int _, _ => rfl
  | .str _, _ => rfl
  | .float (.finite _ _ _), _ => rfl
  | .float .nan, h => by simp [isFinite] at h
  | .float (.infinite _), h => by simp [isFinite] at h
  | .arr items, h => by
      rw [finite, finiteItems_of_areFinite (by simpa [isFinite] using h)]
  | .obj members, h => by
      rw [finite, finiteMembers_of_haveFinite (by simpa [isFinite] using h)]

theorem finiteItems_of_areFinite :
    ∀ {vs : List Json}, isFinite.areFinite vs = true → finite.finiteItems vs = vs
  | [], _ => rfl
  | v :: vs, h => by
      simp only [isFinite.areFinite, Bool.and_eq_true] at h
      rw [finite.finiteItems, finite_of_isFinite h.1, finiteItems_of_areFinite h.2]

theorem finiteMembers_of_haveFinite :
    ∀ {ms : List (String × Json)}, isFinite.haveFinite ms = true → finite.finiteMembers ms = ms
  | [], _ => rfl
  | (k, v) :: ms, h => by
      simp only [isFinite.haveFinite, Bool.and_eq_true] at h
      rw [finite.finiteMembers, finite_of_isFinite h.1, finiteMembers_of_haveFinite h.2]

end

end SchemaDiagram.Json
