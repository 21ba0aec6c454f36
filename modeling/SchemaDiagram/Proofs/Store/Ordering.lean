import SchemaDiagram.DiagramStore
import SchemaDiagram.Proofs.Json.Sorting
import SchemaDiagram.Proofs.Text.Reading

/-!
Diagrams with the members of all objects in the order of their names. An object that is shown as a
text shows that order; whatever else is read from an entry is the same without it.
-/

namespace SchemaDiagram

open SchemaDiagram.Text

theorem exists_trimRight_cons {c : Char} (h : isBlank c = false) (cs : List Char) :
    ∃ ds, trimRight (c :: cs) = c :: ds := by
  rw [trimRight, dropRightWhile, List.reverse_cons, List.dropWhile_append]
  split
  · exact ⟨[], by simp [h]⟩
  · exact ⟨(cs.reverse.dropWhile isBlank).reverse, by simp⟩

theorem coerce_bracket {c : Char} (hc : c = '{' ∨ c = '[') (cs : List Char) :
    FieldType.coerce (c :: cs) = .mixed := by
  have hblank : isBlank c = false := by rcases hc with rfl | rfl <;> decide
  obtain ⟨ds, hds⟩ := exists_trimRight_cons hblank cs
  have htrim : trim (c :: cs) = c :: ds := by rw [trim, trimLeft_cons hblank, hds]
  have hqualifier : FieldType.dropQualifier (c :: ds) = c :: ds := by
    rcases hc with rfl | rfl <;> simp [FieldType.dropQualifier, FieldType.qualifiers, List.isPrefixOf?]
  have hname : FieldType.ofName? (c :: ds) = none := by
    rcases hc with rfl | rfl <;> simp [FieldType.ofName?, FieldType.all, FieldType.name]
  rw [FieldType.coerce, FieldType.lookup?, FieldType.normalize, htrim, hqualifier, hname,
    Option.getD_none]

theorem coerce_display_sorted (v : Json) :
    FieldType.coerce v.sorted.display.toList = FieldType.coerce v.display.toList := by
  -- The texts of containers may differ, but neither is the name of a type.
  cases v with
  | arr items =>
      rw [Json.sorted_arr, Json.display, Json.display, String.toList_ofList, String.toList_ofList]
      · exact (coerce_bracket (.inr rfl) _).trans (coerce_bracket (.inr rfl) _).symm
      · simp
      · simp
  | obj members =>
      rw [Json.sorted_obj, Json.display, Json.display, String.toList_ofList, String.toList_ofList]
      · exact (coerce_bracket (.inl rfl) _).trans (coerce_bracket (.inl rfl) _).symm
      · simp
      · simp
  | _ => rfl

namespace Json

def SaysInOrder (name : String) (v : Json) : Prop :=
  ∀ w, v.get? name = some w → w.sorted = w

theorem saysInOrder_str {name s : String} {v : Json} (h : v.get? name = some (.str s)) :
    v.SaysInOrder name := by
  intro w hw
  obtain rfl := Option.some.inj (h.symm.trans hw)
  rfl

end Json

namespace Field

theorem textMember_sorted {v : Json} (hv : v.Lawful) {name : String} (h : v.SaysInOrder name) :
    textMember name v.sorted = textMember name v := by
  rw [textMember, textMember, Json.get?_sorted hv]
  cases hget : v.get? name with
  | none => rfl
  | some w => rw [Option.map_some, h w hget]

theorem coerce_textMember_sorted {v : Json} (hv : v.Lawful) (name : String) :
    FieldType.coerce (textMember name v.sorted).toList =
      FieldType.coerce (textMember name v).toList := by
  rw [textMember, textMember, Json.get?_sorted hv]
  cases v.get? name with
  | none => rfl
  | some w => exact coerce_display_sorted w

theorem flagMember_sorted {v : Json} (hv : v.Lawful) (name : String) :
    flagMember name v.sorted = flagMember name v := by
  rw [flagMember, flagMember, Json.get?_sorted hv]
  cases v.get? name with
  | none => rfl
  | some w => exact Json.isTruthy_sorted w

theorem listMember?_sorted {v : Json} (hv : v.Lawful) (name : String) :
    listMember? name v.sorted = (listMember? name v).map (·.map Json.sorted) := by
  rw [listMember?, listMember?, Json.get?_sorted hv]
  cases v.get? name with
  | none => rfl
  | some w =>
      cases w with
      | arr items =>
          rw [Option.map_some, Json.sorted_arr]
          rfl
      | obj members =>
          rw [Option.map_some, Json.sorted_obj]
          rfl
      | _ => rfl

def sorted (f : Field) : Field :=
  { f with
    ref := f.ref.sorted
    defaultValue := f.defaultValue.sorted
    enumValues := f.enumValues.map (·.map Json.sorted) }

theorem sorted_sorted (f : Field) : f.sorted.sorted = f.sorted := by
  have hitems : (Json.sorted ∘ Json.sorted) = Json.sorted := funext Json.sorted_sorted
  have hlists : ((·.map Json.sorted) ∘ (·.map Json.sorted) : List Json → List Json) =
      (·.map Json.sorted) := by
    funext items
    simp [hitems]
  simp only [sorted, Json.sorted_sorted, Option.map_map, hlists]

theorem ofJson_sorted {v : Json} (hv : v.Lawful) (h : v.SaysInOrder "name") :
    ofJson v.sorted = (ofJson v).sorted := by
  have hmember : ∀ name, (v.sorted.get? name).getD .null = ((v.get? name).getD .null).sorted := by
    intro name
    rw [Json.get?_sorted hv]
    cases v.get? name <;> rfl
  rw [ofJson, ofJson, textMember_sorted hv h, coerce_textMember_sorted hv, flagMember_sorted hv,
    flagMember_sorted hv, listMember?_sorted hv, hmember, hmember]
  rfl

end Field

namespace Model

theorem isObject_sorted (v : Json) : isObject v.sorted = isObject v := by
  cases v with
  | arr items =>
      rw [Json.sorted_arr]
      rfl
  | obj members =>
      rw [Json.sorted_obj]
      rfl
  | _ => rfl

theorem objectsIn_sorted (v : Option Json) :
    objectsIn (v.map Json.sorted) = (objectsIn v).map Json.sorted := by
  cases v with
  | none => rfl
  | some w =>
      cases w with
      | arr items =>
          rw [Option.map_some, Json.sorted_arr, objectsIn, objectsIn, List.filter_map]
          have hobject : isObject ∘ Json.sorted = isObject := funext isObject_sorted
          rw [hobject]
      | obj members =>
          rw [Option.map_some, Json.sorted_obj]
          rfl
      | _ => rfl

theorem lawful_of_mem_objectsIn {v : Option Json} (hv : ∀ w ∈ v, w.Lawful) {o : Json}
    (ho : o ∈ objectsIn v) : o.Lawful := by
  cases v with
  | none => exact absurd ho List.not_mem_nil
  | some w =>
      cases w with
      | arr items => exact Json.lawful_arr.1 (hv _ rfl) o (List.mem_of_mem_filter ho)
      | _ => exact absurd ho List.not_mem_nil

/-- Whether no text of a model or its fields shows an object out of order. -/
structure Legible (o : Json) : Prop where
  name : o.SaysInOrder "name"
  filePath : o.SaysInOrder "filePath"
  fields : ∀ f ∈ objectsIn (o.get? "fields"), f.SaysInOrder "name"

theorem legible_toJson (m : Model) : Legible m.toJson where
  name := Json.saysInOrder_str (s := m.name) rfl
  filePath := Json.saysInOrder_str (s := m.filePath) rfl
  fields o ho := by
    obtain ⟨f, -, rfl⟩ := List.mem_map.1 (List.mem_of_mem_filter ho)
    exact Json.saysInOrder_str (s := f.name) rfl

def sorted (m : Model) : Model :=
  { m with fields := m.fields.map Field.sorted }

theorem sorted_sorted (m : Model) : m.sorted.sorted = m.sorted := by
  have hfields : Field.sorted ∘ Field.sorted = Field.sorted := funext Field.sorted_sorted
  simp only [sorted, List.map_map, hfields]

theorem lawful_of_get? {v w : Json} (hv : v.Lawful) {name : String} (h : v.get? name = some w) :
    w.Lawful := by
  cases v with
  | obj members =>
      obtain ⟨hnodup, hmembers⟩ := Json.lawful_obj.1 hv
      exact hmembers _ ((Json.lookup_eq_some_iff hnodup).1 h)
  | _ => exact absurd h (by simp [Json.get?])

theorem ofJson_sorted {o : Json} (ho : o.Lawful) (h : Legible o) :
    ofJson o.sorted = (ofJson o).sorted := by
  have hfields : (objectsIn (o.sorted.get? "fields")).map Field.ofJson =
      ((objectsIn (o.get? "fields")).map Field.ofJson).map Field.sorted := by
    rw [Json.get?_sorted ho, objectsIn_sorted, List.map_map, List.map_map]
    refine List.map_congr_left fun f hf => Field.ofJson_sorted ?_ (h.fields f hf)
    exact lawful_of_mem_objectsIn (fun w hw => lawful_of_get? ho hw) hf
  rw [ofJson, ofJson, Field.textMember_sorted ho h.name, Field.textMember_sorted ho h.filePath,
    hfields]
  rfl

end Model

namespace DiagramRecord

def sorted (r : DiagramRecord) : DiagramRecord :=
  { r with models := r.models.map Model.sorted }

theorem sorted_sorted (r : DiagramRecord) : r.sorted.sorted = r.sorted := by
  have hmodels : Model.sorted ∘ Model.sorted = Model.sorted := funext Model.sorted_sorted
  simp only [sorted, List.map_map, hmodels]

end DiagramRecord

namespace DiagramEntry

def sorted (e : DiagramEntry) : DiagramEntry :=
  Json.sortByName (e.map fun m => (m.1, m.2.sorted))

theorem sorted_obj (e : DiagramEntry) : (Json.obj e).sorted = .obj e.sorted :=
  Json.sorted_obj e

theorem sorted_sorted (e : DiagramEntry) : e.sorted.sorted = e.sorted := by
  have hsorted := Json.sorted_sorted (.obj e)
  rw [sorted_obj, sorted_obj] at hsorted
  exact Json.obj.inj hsorted

theorem lookup_sorted {e : DiagramEntry} (he : (Json.obj e).Lawful) (name : String) :
    e.sorted.lookup name = (e.lookup name).map Json.sorted := by
  have hget := Json.get?_sorted he name
  rw [sorted_obj] at hget
  exact hget

/-- Whether no text of an entry shows an object out of order. -/
structure Legible (e : DiagramEntry) : Prop where
  repository : (Json.obj e).SaysInOrder "repository"
  user : (Json.obj e).SaysInOrder "user"
  createdAt : (Json.obj e).SaysInOrder "created_at"
  updatedAt : (Json.obj e).SaysInOrder "updated_at"
  models : ∀ o ∈ Model.objectsIn (e.lookup "models"), Model.Legible o

theorem legible_ofRecord (r : DiagramRecord) : (ofRecord r).Legible where
  repository := Json.saysInOrder_str (s := r.repository) rfl
  user := Json.saysInOrder_str (s := r.user) rfl
  createdAt := Json.saysInOrder_str (s := r.createdAt) rfl
  updatedAt := Json.saysInOrder_str (s := r.updatedAt) rfl
  models o ho := by
    obtain ⟨m, -, rfl⟩ := List.mem_map.1 (List.mem_of_mem_filter ho)
    exact Model.legible_toJson m

theorem text_sorted {e : DiagramEntry} (he : (Json.obj e).Lawful) {name : String}
    (h : (Json.obj e).SaysInOrder name) (fallback : String) :
    e.sorted.text name fallback = e.text name fallback := by
  rw [text, text, lookup_sorted he]
  cases hlookup : e.lookup name with
  | none => rfl
  | some w => rw [Option.map_some, h w hlookup]

theorem holds_sorted {e : DiagramEntry} (he : (Json.obj e).Lawful) (name value : String) :
    e.sorted.holds name value = e.holds name value := by
  rw [holds, holds, lookup_sorted he]
  cases e.lookup name with
  | none => rfl
  | some w =>
      cases w with
      | arr items =>
          rw [Option.map_some, Json.sorted_arr]
      | obj members =>
          rw [Option.map_some, Json.sorted_obj]
      | _ => rfl

theorem models_sorted {e : DiagramEntry} (he : (Json.obj e).Lawful) (h : e.Legible) :
    e.sorted.models = e.models.map Model.sorted := by
  rw [models, models, lookup_sorted he, Model.objectsIn_sorted, List.map_map, List.map_map]
  refine List.map_congr_left fun o ho => Model.ofJson_sorted ?_ (h.models o ho)
  exact Model.lawful_of_mem_objectsIn (fun w hw => Model.lawful_of_get? he hw) ho

theorem toRecord_sorted {e : DiagramEntry} (he : (Json.obj e).Lawful) (h : e.Legible)
    (repository user : String) :
    e.sorted.toRecord repository user = (e.toRecord repository user).sorted := by
  rw [toRecord, toRecord, text_sorted he h.repository, text_sorted he h.user,
    text_sorted he h.createdAt, text_sorted he h.updatedAt, models_sorted he h]
  rfl

end DiagramEntry

end SchemaDiagram
