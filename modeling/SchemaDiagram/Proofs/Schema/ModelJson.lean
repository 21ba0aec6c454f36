import SchemaDiagram.Schema.Model

/-!
A model is what its object in JSON is read as.
-/

namespace SchemaDiagram

namespace Field

theorem lookup_optionalMember_of_ne {name other : String} (hne : other ≠ name) (v : Json)
    (rest : List (String × Json)) :
    (optionalMember name v ++ rest).lookup other = rest.lookup other := by
  have hbeq : (other == name) = false := by simpa using hne
  cases v with
  | null => rfl
  | _ => simp [optionalMember, List.lookup_cons, hbeq]

theorem lookup_optionalMember_self {name : String} (v : Json) {rest : List (String × Json)}
    (hrest : rest.lookup name = none) :
    ((optionalMember name v ++ rest).lookup name).getD .null = v := by
  cases v with
  | null => simp [optionalMember, hrest]
  | _ => simp [optionalMember]

theorem get?_toJson (f : Field) {name : String}
    (hne : name ∉ ["name", "type", "required", "isArray"]) :
    f.toJson.get? name =
      (optionalMember "ref" f.ref ++ (optionalMember "defaultValue" f.defaultValue ++
        (optionalMember "enumValues" (listJson f.enumValues) ++ []))).lookup name := by
  simp only [List.mem_cons, List.not_mem_nil, or_false, not_or, ← beq_eq_false_iff_ne] at hne
  obtain ⟨hname, htype, hrequired, harray⟩ := hne
  simp [toJson, Json.get?, List.lookup_cons, hname, htype, hrequired, harray]

theorem ref_ofJson_toJson (f : Field) : (f.toJson.get? "ref").getD .null = f.ref := by
  rw [get?_toJson f (by decide)]
  refine lookup_optionalMember_self f.ref ?_
  rw [lookup_optionalMember_of_ne (by decide), lookup_optionalMember_of_ne (by decide)]
  rfl

theorem default_ofJson_toJson (f : Field) :
    (f.toJson.get? "defaultValue").getD .null = f.defaultValue := by
  rw [get?_toJson f (by decide), lookup_optionalMember_of_ne (by decide)]
  refine lookup_optionalMember_self f.defaultValue ?_
  rw [lookup_optionalMember_of_ne (by decide)]
  rfl

theorem enum_ofJson_toJson (f : Field) : listMember? "enumValues" f.toJson = f.enumValues := by
  rw [listMember?, get?_toJson f (by decide), lookup_optionalMember_of_ne (by decide),
    lookup_optionalMember_of_ne (by decide)]
  cases f.enumValues <;> rfl

theorem ofJson_toJson (f : Field) : ofJson f.toJson = f := by
  have hname : textMember "name" f.toJson = f.name := rfl
  have htype : textMember "type" f.toJson = f.type.name := rfl
  have hrequired : flagMember "required" f.toJson = f.required := rfl
  have harray : flagMember "isArray" f.toJson = f.isArray := rfl
  rw [ofJson, hname, htype, hrequired, harray, ref_ofJson_toJson, default_ofJson_toJson,
    enum_ofJson_toJson, FieldType.coerce_name]

end Field

namespace Model

theorem objectsIn_map {α : Type} {f : α → Json} (h : ∀ a, isObject (f a) = true) (xs : List α) :
    objectsIn (some (.arr (xs.map f))) = xs.map f := by
  refine List.filter_eq_self.2 fun v hv => ?_
  obtain ⟨a, -, rfl⟩ := List.mem_map.1 hv
  exact h a

theorem ofJson_toJson (m : Model) : ofJson m.toJson = m := by
  have hname : Field.textMember "name" m.toJson = m.name := rfl
  have hpath : Field.textMember "filePath" m.toJson = m.filePath := rfl
  have hfields : m.toJson.get? "fields" = some (.arr (m.fields.map Field.toJson)) := rfl
  have hread : Field.ofJson ∘ Field.toJson = id := funext Field.ofJson_toJson
  rw [ofJson, hname, hpath, hfields, objectsIn_map fun _ => rfl, List.map_map, hread, List.map_id]

theorem normalized_at_once :
    (∀ members, ofJson (ofJson (.obj members)).toJson = ofJson (.obj members)) ∧
    (∀ m : Model, ofJson m.toJson = m) ∧
    ∀ v, (ofJson v).toJson = v ↔ ∃ m : Model, m.toJson = v := by
  refine ⟨fun members => ofJson_toJson _, ofJson_toJson, fun v => ⟨fun h => ⟨ofJson v, h⟩, ?_⟩⟩
  rintro ⟨m, rfl⟩
  rw [ofJson_toJson]

example : ofJson (.obj [("name", .null), ("fields", .arr [.int 3, .obj [("name", .int 7),
      ("type", .str " Schema.Date"), ("required", .str "no"), ("ref", .arr []),
      ("enumValues", .str "x")]])]) =
    ⟨"None", "", [{ name := "7", type := .date, required := true, ref := .arr [] }]⟩ := by
  rfl

end Model

end SchemaDiagram
