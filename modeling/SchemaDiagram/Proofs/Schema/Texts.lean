import SchemaDiagram.Diagram
import SchemaDiagram.Json.Finite
import SchemaDiagram.Pipeline
import SchemaDiagram.Proofs.Json.Lawful

namespace SchemaDiagram

namespace Json

theorem isFinite_arr {items : List Json} :
    (Json.arr items).isFinite = true ↔ ∀ v ∈ items, v.isFinite = true := by
  rw [isFinite]
  induction items with
  | nil => simp [isFinite.areFinite]
  | cons v vs ih => simp [isFinite.areFinite, ih]

theorem isFinite_obj {members : List (String × Json)} :
    (Json.obj members).isFinite = true ↔ ∀ m ∈ members, m.2.isFinite = true := by
  rw [isFinite]
  induction members with
  | nil => simp [isFinite.haveFinite]
  | cons m ms ih =>
      obtain ⟨k, v⟩ := m
      rw [isFinite.haveFinite, Bool.and_eq_true, ih, List.forall_mem_cons]

theorem get?_finite (v : Json) (name : String) : v.finite.get? name = (v.get? name).map finite := by
  cases v with
  | obj members =>
      rw [finite, get?, get?]
      induction members with
      | nil => rfl
      | cons m ms ih =>
          obtain ⟨k, w⟩ := m
          rw [finite.finiteMembers, List.lookup_cons, List.lookup_cons]
          cases name == k with
          | true => rfl
          | false => exact ih
  | float x => cases x <;> rfl
  | _ => rfl

structure Sayable (v : Json) : Prop where
  lawful : v.Lawful
  finite : v.isFinite = true

theorem sayable_str (s : String) : Sayable (.str s) :=
  ⟨trivial, rfl⟩

theorem sayable_bool (b : Bool) : Sayable (.bool b) :=
  ⟨trivial, rfl⟩

theorem sayable_arr {items : List Json} (h : ∀ v ∈ items, v.Sayable) : Sayable (.arr items) :=
  ⟨lawful_arr.2 fun v hv => (h v hv).lawful, isFinite_arr.2 fun v hv => (h v hv).finite⟩

theorem sayable_obj {members : List (String × Json)} (hnodup : (members.map Prod.fst).Nodup)
    (h : ∀ m ∈ members, m.2.Sayable) : Sayable (.obj members) :=
  ⟨lawful_obj.2 ⟨hnodup, fun m hm => (h m hm).lawful⟩, isFinite_obj.2 fun m hm => (h m hm).finite⟩

theorem Sayable.finite_eq {v : Json} (h : v.Sayable) : v.finite = v :=
  finite_of_isFinite h.finite

inductive Textual : Json → Prop where
  | null : Textual .null
  | str (s : String) : Textual (.str s)

theorem Textual.sayable {v : Json} (h : v.Textual) : v.Sayable := by
  cases h with
  | null => exact ⟨trivial, rfl⟩
  | str s => exact sayable_str s

theorem textual_jsonText (cs : Option (List Char)) : ((cs.map jsonText).getD .null).Textual := by
  cases cs with
  | none => exact .null
  | some cs => exact .str _

end Json

namespace Field

structure Textual (f : Field) : Prop where
  ref : f.ref.Textual
  default : f.defaultValue.Textual
  enum : ∀ items ∈ f.enumValues, ∀ v ∈ items, v.Textual

theorem textual_plain (type : FieldType) (isArray : Bool) :
    Textual { name := "", type, isArray } :=
  ⟨.null, .null, by simp⟩

theorem textual_ofObject (cs : List Char) : (ofObject cs).Textual where
  ref := Json.textual_jsonText _
  default := Json.textual_jsonText _
  enum items hitems v hv := by
    obtain ⟨inside, -, rfl⟩ := Option.map_eq_some_iff.1 hitems
    obtain ⟨item, -, rfl⟩ := List.mem_map.1 hv
    exact .str _

theorem Textual.inArray {f : Field} (h : f.Textual) : Textual { f with isArray := true } :=
  ⟨h.ref, h.default, h.enum⟩

theorem Textual.named {f : Field} (h : f.Textual) (name : String) : Textual { f with name } :=
  ⟨h.ref, h.default, h.enum⟩

theorem textual_ofValue (cs : List Char) : (ofValue cs).Textual := by
  simp only [ofValue]
  split
  · exact textual_plain _ _
  · split
    · split
      · exact textual_plain _ _
      · split
        · exact (textual_ofObject _).inArray
        · exact textual_plain _ _
    · split
      · exact textual_ofObject _
      · exact textual_plain _ _

theorem textual_of_mem_parseFields {cs : List Char} {f : Field} (h : f ∈ parseFields cs) :
    f.Textual := by
  obtain ⟨entry, -, hentry⟩ := List.mem_filterMap.1 h
  obtain ⟨⟨name, value⟩, -, rfl⟩ := Option.map_eq_some_iff.1 hentry
  exact (textual_ofValue value).named _

theorem map_fst_optionalMember (name : String) (v : Json) :
    ((optionalMember name v).map Prod.fst).Sublist [name] := by
  cases v with
  | null => exact List.nil_sublist _
  | _ => exact List.Sublist.refl _

theorem eq_of_mem_optionalMember {name : String} {v : Json} {m : String × Json}
    (h : m ∈ optionalMember name v) : m.2 = v := by
  cases v with
  | null => exact absurd h List.not_mem_nil
  | _ => rw [List.mem_singleton.1 h]

theorem Textual.sayable_listJson {f : Field} (h : f.Textual) : (listJson f.enumValues).Sayable := by
  cases henum : f.enumValues with
  | none => exact Json.Textual.null.sayable
  | some items => exact Json.sayable_arr fun v hv => (h.enum items henum v hv).sayable

theorem Textual.sayable_toJson {f : Field} (h : f.Textual) : f.toJson.Sayable := by
  refine Json.sayable_obj ?_ fun m hm => ?_
  · have hnames : ["name", "type", "required", "isArray", "ref", "defaultValue",
        "enumValues"].Nodup := by decide
    refine hnames.sublist ?_
    simp only [List.map_append]
    exact (((List.Sublist.refl _).append (map_fst_optionalMember _ _)).append
      (map_fst_optionalMember _ _)).append (map_fst_optionalMember _ _)
  · simp only [List.mem_append, List.mem_cons, List.not_mem_nil, or_false] at hm
    rcases hm with (((rfl | rfl | rfl | rfl) | href) | hdefault) | henum
    · exact Json.sayable_str _
    · exact Json.sayable_str _
    · exact Json.sayable_bool _
    · exact Json.sayable_bool _
    · rw [eq_of_mem_optionalMember href]
      exact h.ref.sayable
    · rw [eq_of_mem_optionalMember hdefault]
      exact h.default.sayable
    · rw [eq_of_mem_optionalMember henum]
      exact h.sayable_listJson

end Field

namespace Model

def Textual (m : Model) : Prop :=
  ∀ f ∈ m.fields, f.Textual

theorem Textual.sayable_toJson {m : Model} (h : m.Textual) : m.toJson.Sayable := by
  have hfields : (Json.arr (m.fields.map Field.toJson)).Sayable := by
    refine Json.sayable_arr fun v hv => ?_
    obtain ⟨f, hf, rfl⟩ := List.mem_map.1 hv
    exact (h f hf).sayable_toJson
  refine Json.sayable_obj (by simp) fun member hmember => ?_
  simp only [List.mem_cons, List.not_mem_nil, or_false] at hmember
  rcases hmember with rfl | rfl | rfl
  · exact Json.sayable_str _
  · exact Json.sayable_str _
  · exact hfields

theorem sayable_arr_map_toJson {models : List Model} (h : ∀ m ∈ models, m.Textual) :
    (Json.arr (models.map toJson)).Sayable := by
  refine Json.sayable_arr fun v hv => ?_
  obtain ⟨m, hm, rfl⟩ := List.mem_map.1 hv
  exact (h m hm).sayable_toJson

end Model

namespace Extraction

theorem textual_ofBlock {cs : List Char} {index : Declaration.Index} {path : String}
    {lookback : Int} {b : SchemaBlock} {m : Model}
    (h : ofBlock cs index path lookback b = .ok m) : m.Textual := by
  rw [ofBlock] at h
  split at h
  · simp at h
  · obtain rfl := Except.ok.inj h
    exact fun f hf => Field.textual_of_mem_parseFields hf

theorem textual_of_mem_ofFile {file : SourceFile} {lookback : Int} {m : Model}
    (h : m ∈ ofFile file lookback) : m.Textual := by
  obtain ⟨found, hfound, hm⟩ := List.mem_filterMap.1 h
  simp only [results] at hfound
  split at hfound
  · obtain ⟨b, -, rfl⟩ := List.mem_map.1 hfound
    cases hblock : ofBlock file.content.toList (Declaration.index file.content.toList) file.path
        lookback b with
    | error entry => simp [hblock, Except.toOption] at hm
    | ok found =>
        rw [hblock] at hm
        obtain rfl := Option.some.inj hm
        exact textual_ofBlock hblock
  · exact absurd hfound List.not_mem_nil

theorem exists_fields_of_mem_merge {registry : NameRegistry} {ms : List Model} {m : Model}
    (h : m ∈ (merge registry ms).1) : ∃ old ∈ ms, old.fields = m.fields := by
  have hfields : (m.filePath, m.fields) ∈ ms.map fun m => (m.filePath, m.fields) := by
    rw [← map_fields_merge registry ms]
    exact List.mem_map_of_mem h
  obtain ⟨old, hold, heq⟩ := List.mem_map.1 hfields
  exact ⟨old, hold, (Prod.mk.inj heq).2⟩

theorem textual_of_mem_ofFiles {files : List SourceFile} {registry : NameRegistry}
    {lookback : Int} {m : Model} (h : m ∈ (ofFiles files registry lookback).1) : m.Textual := by
  obtain ⟨old, hold, hfields⟩ := exists_fields_of_mem_merge h
  obtain ⟨file, -, hfile⟩ := List.mem_flatMap.1 hold
  intro f hf
  rw [← hfields] at hf
  exact textual_of_mem_ofFile hfile f hf

end Extraction

namespace Pipeline

theorem textual_scan {p : Pipeline} {r : Repository} {timeout : Option Seconds}
    {registry : NameRegistry} {result : ScanResult}
    (h : (p.scan r timeout registry).result = .ok result) : ∀ m ∈ result.models, m.Textual := by
  rw [scan] at h
  split at h
  · simp at h
  · dsimp only at h
    split at h
    · simp at h
    · obtain rfl := Except.ok.inj h
      exact fun m hm => Extraction.textual_of_mem_ofFiles hm

theorem textual_run {p : Pipeline} {r : Repository} {orm : Option String}
    {timeout : Option Seconds} {registry : NameRegistry} {result : ScanResult}
    (h : (p.run r orm timeout registry).result = .ok result) : ∀ m ∈ result.models, m.Textual := by
  cases orm with
  | none => exact textual_scan h
  | some name =>
      simp only [run] at h
      split at h
      · exact textual_scan h
      · obtain rfl := Except.ok.inj h
        exact fun m hm => absurd hm List.not_mem_nil

end Pipeline

theorem mapM_eq_ok {ε α β : Type} {f : α → Except ε β} {xs : List α}
    (h : ∀ x ∈ xs, ∃ y, f x = .ok y) : ∃ ys, xs.mapM f = .ok ys := by
  induction xs with
  | nil => exact ⟨[], rfl⟩
  | cons x xs ih =>
      obtain ⟨hx, hxs⟩ := List.forall_mem_cons.1 h
      obtain ⟨y, hy⟩ := hx
      obtain ⟨ys, hys⟩ := ih hxs
      rw [List.mapM_cons, hy, hys]
      exact ⟨y :: ys, rfl⟩

namespace Diagram

theorem target?_eq_ok {f : Field} (h : f.Textual) (names : List String) :
    ∃ found, target? names f = .ok found := by
  have href := h.ref
  rw [target?]
  generalize f.ref = v at href
  cases href with
  | null => exact ⟨none, rfl⟩
  | str s => exact ⟨_, rfl⟩

theorem edgesOf_eq_ok {fs : List Field} (h : ∀ f ∈ fs, f.Textual) (names : List String)
    (m : Model) : ∃ found, edgesOf names m fs = .ok found := by
  induction fs with
  | nil => exact ⟨[], rfl⟩
  | cons f fs ih =>
      obtain ⟨hf, hfs⟩ := List.forall_mem_cons.1 h
      obtain ⟨target, htarget⟩ := target?_eq_ok hf names
      obtain ⟨rest, hrest⟩ := ih hfs
      rw [edgesOf, htarget, hrest]
      exact ⟨_, rfl⟩

theorem toJson_eq_ok {models : List Model} (h : ∀ m ∈ models, m.Textual) :
    ∃ v, toJson models = .ok v := by
  obtain ⟨found, hfound⟩ := mapM_eq_ok fun m hm =>
    edgesOf_eq_ok (h m hm) (models.map Model.name) m
  rw [toJson, edges, hfound]
  exact ⟨_, rfl⟩

end Diagram

end SchemaDiagram
