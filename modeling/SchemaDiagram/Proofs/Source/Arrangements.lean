import SchemaDiagram.Proofs.Source.Clauses

/-!
Attributes in any order. Whatever is chosen of a type, a reference, a default and the like, each at
most once, describes the same field in all the orders in which it can be written.
-/

namespace SchemaDiagram.Written

structure Attributes where
  type : Option (Bool × TypePath) := none
  ref : Option Word := none
  required : Option Bool := none
  default : Option Preset := none
  enum : Option (Word × List Word) := none

namespace Attributes

def clauses (a : Attributes) : List Clause :=
  (a.type.map fun t => Clause.type t.1 t.2).toList ++ ((a.ref.map Clause.ref).toList ++
    ((a.required.map Clause.required).toList ++ ((a.default.map Clause.default).toList ++
      (a.enum.map fun values => Clause.enum values.1 values.2).toList)))

def field (a : Attributes) : Field :=
  { name := ""
    type := match a.type, a.ref with
      | some t, _ => .coerce t.2.chars
      | none, some _ => .objectId
      | none, none => .mixed
    required := a.required == some true
    isArray := a.type.any Prod.fst
    ref := (a.ref.map fun target => jsonText target.chars).getD .null
    defaultValue := (a.default.map fun value => jsonText value.chars).getD .null
    enumValues := a.enum.map fun values =>
      (values.1 :: values.2).map fun value => jsonText value.chars }

end Attributes

section

variable {α β κ : Type} {key : α → κ} {k : κ} {f : α → Option β} {as bs : List α}

theorem findSome?_perm (hkey : ∀ a, (f a).isSome = true → key a = k) (h : as.Perm bs)
    (hnodup : (as.map key).Nodup) : as.findSome? f = bs.findSome? f := by
  induction h with
  | nil => rfl
  | cons a _ ih =>
      rw [findSome?_cons_eq_or, findSome?_cons_eq_or, ih (List.nodup_cons.1 hnodup).2]
  | swap a b as =>
      have hne : key b ≠ key a := by
        intro heq
        exact (List.nodup_cons.1 hnodup).1 (heq ▸ List.mem_cons_self)
      simp only [findSome?_cons_eq_or]
      cases ha : f a with
      | none => rfl
      | some x =>
          cases hb : f b with
          | none => rfl
          | some y =>
              have hkeys := (hkey b (by simp [hb])).trans (hkey a (by simp [ha])).symm
              exact absurd hkeys hne
  | trans hab _ ihab ihbc =>
      rw [ihab hnodup, ihbc ((hab.map key).nodup_iff.1 hnodup)]

theorem findSome?_toList (o : Option α) (g : α → β) {γ : Type} (f : β → Option γ) :
    (o.map g).toList.findSome? f = o.bind fun x => f (g x) := by
  cases o with
  | none => rfl
  | some x =>
      rw [Option.map_some, Option.toList_some, findSome?_cons_eq_or]
      exact Option.or_none

theorem any_toList (o : Option α) (g : α → β) (p : β → Bool) :
    (o.map g).toList.any p = o.any fun x => p (g x) := by
  cases o <;> simp

end

namespace Attributes

variable (a : Attributes)

theorem findSome?_clauses {β : Type} (f : Clause → Option β) :
    a.clauses.findSome? f = (a.type.bind fun t => f (.type t.1 t.2)).or
      ((a.ref.bind fun target => f (.ref target)).or
        ((a.required.bind fun value => f (.required value)).or
          ((a.default.bind fun value => f (.default value)).or
            (a.enum.bind fun values => f (.enum values.1 values.2))))) := by
  simp only [clauses, List.findSome?_append, findSome?_toList]

theorem any_clauses (p : Clause → Bool) :
    a.clauses.any p = ((a.type.any fun t => p (.type t.1 t.2)) ||
      ((a.ref.any fun target => p (.ref target)) ||
        ((a.required.any fun value => p (.required value)) ||
          ((a.default.any fun value => p (.default value)) ||
            (a.enum.any fun values => p (.enum values.1 values.2)))))) := by
  simp only [clauses, List.any_append, any_toList]

theorem nodup_labels : (a.clauses.map fun c => c.entry.label).Nodup := by
  have hpart {α : Type} (label : String) (o : Option α) (g : α → Clause)
      (h : ∀ x, (g x).entry.label = label) :
      ((o.map g).toList.map fun c => c.entry.label).Sublist [label] := by
    cases o with
    | none => exact List.nil_sublist _
    | some x => simp [h x]
  have htype := hpart "type" a.type (fun t => .type t.1 t.2) fun _ => rfl
  have href := hpart "ref" a.ref .ref fun _ => rfl
  have hrequired := hpart "required" a.required .required fun _ => rfl
  have hdefault := hpart "default" a.default .default fun _ => rfl
  have henum := hpart "enum" a.enum (fun values => .enum values.1 values.2) fun _ => rfl
  have hall := htype.append (href.append (hrequired.append (hdefault.append henum)))
  simp only [clauses, List.map_append]
  exact hall.nodup (by decide)

theorem fieldOf_clauses : fieldOf a.clauses = a.field := by
  have hpath : a.clauses.findSome? Clause.path? = a.type.map fun t => t.2.chars := by
    rw [findSome?_clauses]
    cases a.type <;> simp [Clause.path?]
  have href : a.clauses.findSome? Clause.ref? = a.ref.map Word.chars := by
    rw [findSome?_clauses]
    cases a.ref <;> simp [Clause.ref?]
  have hdefault : a.clauses.findSome? Clause.default? = a.default.map Preset.chars := by
    rw [findSome?_clauses]
    cases a.default <;> simp [Clause.default?]
  have henum : a.clauses.findSome? Clause.enum? =
      a.enum.map fun values => (values.1 :: values.2).map Word.chars := by
    rw [findSome?_clauses]
    cases a.enum <;> simp [Clause.enum?]
  have hrequired : a.clauses.any Clause.isRequired = (a.required == some true) := by
    rw [any_clauses]
    cases a.required <;> simp [Clause.isRequired]
  have harray : a.clauses.any Clause.isArray = a.type.any Prod.fst := by
    simp [any_clauses, Clause.isArray]
  simp only [fieldOf, field, hpath, href, hdefault, henum, hrequired, harray, Option.map_map]
  cases a.type <;> cases a.ref <;> cases a.enum <;> simp [Function.comp_def]

theorem fieldOf_perm {order : List Clause} (h : order.Perm a.clauses) :
    fieldOf order = fieldOf a.clauses := by
  have hnodup : (order.map fun c => c.entry.label).Nodup :=
    (h.map _).nodup_iff.2 a.nodup_labels
  have hsame {β : Type} {f : Clause → Option β} (label : String)
      (hlabel : ∀ c, (f c).isSome = true → c.entry.label = label) :
      order.findSome? f = a.clauses.findSome? f := findSome?_perm hlabel h hnodup
  have hpath := hsame (f := Clause.path?) "type" fun c hc => by cases c <;> trivial
  have href := hsame (f := Clause.ref?) "ref" fun c hc => by cases c <;> trivial
  have hdefault := hsame (f := Clause.default?) "default" fun c hc => by cases c <;> trivial
  have henum := hsame (f := Clause.enum?) "enum" fun c hc => by cases c <;> trivial
  have hany (p : Clause → Bool) : order.any p = a.clauses.any p := h.any_eq
  simp only [fieldOf, hpath, href, hdefault, henum, hany]

end Attributes

theorem ofObject_any_order (a : Attributes) {order : List Clause} (h : order.Perm a.clauses) :
    Field.ofObject (objectText (order.map Clause.text)) = a.field := by
  rw [ofObject_clauses, a.fieldOf_perm h, a.fieldOf_clauses]

def crossNamed : Attributes :=
  { type := some (true, ⟨⟨"Schema".toList, by decide, by decide⟩,
      [⟨"Types".toList, by decide, by decide⟩, ⟨"ObjectId".toList, by decide, by decide⟩],
      by decide⟩)
    ref := some ⟨"default".toList, by decide, by decide⟩
    required := some true
    default := some (.bare ⟨'r', "ef.type".toList, by decide, by decide⟩)
    enum := some (⟨"type".toList, by decide, by decide⟩, [⟨"ref".toList, by decide, by decide⟩]) }

theorem crossNamed_reversed :
    crossNamed.clauses.reverse.Perm crossNamed.clauses ∧
    objectText (crossNamed.clauses.reverse.map Clause.text) =
      ("\x7b enum: ['type', 'ref'], default: ref.type, required: true, ref: 'default', " ++
        "type: [Schema.Types.ObjectId] \x7d").toList ∧
    Field.ofObject (objectText (crossNamed.clauses.reverse.map Clause.text)) =
      { name := "", type := .objectId, required := true, isArray := true, ref := .str "default"
        defaultValue := .str "ref.type", enumValues := some [.str "type", .str "ref"] } := by
  have hperm : crossNamed.clauses.reverse.Perm crossNamed.clauses := List.reverse_perm _
  refine ⟨hperm, by decide, ?_⟩
  rw [ofObject_any_order crossNamed hperm]
  rfl

end SchemaDiagram.Written
