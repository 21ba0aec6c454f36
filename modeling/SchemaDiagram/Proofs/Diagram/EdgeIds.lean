import Mathlib.Data.List.Nodup
import SchemaDiagram.Proofs.Names.References

/-!
The ids of edges. Names joined by dashes can be joined from other names too, so that different edges can
share an id: the parts of one end where dashes stand within the parts of the other.
-/

namespace SchemaDiagram.Diagram

def edgeIds (graph : Json) : List Json :=
  match graph.get? "edges" with
  | some (.arr es) => es.filterMap (Json.get? "id")
  | _ => []

/-- The name of the source of the second edge goes on, behind a dash, where that of the first one ends,
or else the field does, and the parts behind it make up for it. -/
def Edge.Shadows (e e' : Edge) : Prop :=
  (∃ m, e'.source = e.source ++ "-" ++ m ∧
      e.field ++ "-" ++ e.target = m ++ "-" ++ (e'.field ++ "-" ++ e'.target)) ∨
    (e'.source = e.source ∧
      ∃ m, e'.field = e.field ++ "-" ++ m ∧ e.target = m ++ "-" ++ e'.target)

theorem dashed_eq_iff {a b r t : String} : a ++ "-" ++ r = b ++ "-" ++ t ↔
    (a = b ∧ r = t) ∨ (∃ m, b = a ++ "-" ++ m ∧ r = m ++ "-" ++ t) ∨
      ∃ m, a = b ++ "-" ++ m ∧ t = m ++ "-" ++ r := by
  have hbehind {a b r t : String} {more : List Char} (hb : b.toList = a.toList ++ more)
      (h : '-' :: r.toList = more ++ '-' :: t.toList) :
      (a = b ∧ r = t) ∨ ∃ m, b = a ++ "-" ++ m ∧ r = m ++ "-" ++ t := by
    cases more with
    | nil =>
        refine .inl ⟨String.toList_inj.1 ?_, String.toList_inj.1 ?_⟩
        · simpa using hb.symm
        · simpa using h
    | cons c more =>
        obtain ⟨rfl, hr⟩ := List.cons.inj h
        refine .inr ⟨String.ofList more, String.toList_inj.1 ?_, String.toList_inj.1 ?_⟩
        · simpa using hb
        · simpa using hr
  constructor
  · intro h
    have hchars : a.toList ++ '-' :: r.toList = b.toList ++ '-' :: t.toList := by
      simpa using congrArg String.toList h
    rcases List.append_eq_append_iff.1 hchars with ⟨more, hb, hrest⟩ | ⟨more, ha, hrest⟩
    · exact (hbehind hb hrest).imp_right .inl
    · rcases hbehind ha hrest with ⟨rfl, rfl⟩ | hmore
      · exact .inl ⟨rfl, rfl⟩
      · exact .inr (.inr hmore)
  · rintro (⟨rfl, rfl⟩ | ⟨m, rfl, rfl⟩ | ⟨m, rfl, rfl⟩)
    · rfl
    · simp only [String.append_assoc]
    · simp only [String.append_assoc]

theorem id_eq (e : Edge) : e.id = e.source ++ "-" ++ (e.field ++ "-" ++ e.target) := by
  simp only [Edge.id, String.append_assoc]

theorem id_eq_iff {e e' : Edge} : e.id = e'.id ↔ e = e' ∨ e.Shadows e' ∨ e'.Shadows e := by
  obtain ⟨source, target, field⟩ := e
  obtain ⟨source', target', field'⟩ := e'
  rw [id_eq, id_eq, dashed_eq_iff]
  constructor
  · rintro (⟨rfl, hrest⟩ | hsource | hsource)
    · rcases dashed_eq_iff.1 hrest with ⟨rfl, rfl⟩ | hfield | hfield
      · exact .inl rfl
      · exact .inr (.inl (.inr ⟨rfl, hfield⟩))
      · exact .inr (.inr (.inr ⟨rfl, hfield⟩))
    · exact .inr (.inl (.inl hsource))
    · exact .inr (.inr (.inl hsource))
  · rintro (heq | (hsource | ⟨rfl, hfield⟩) | hsource | ⟨rfl, hfield⟩)
    · obtain ⟨rfl, rfl, rfl⟩ := Edge.mk.inj heq
      exact .inl ⟨rfl, rfl⟩
    · exact .inr (.inl hsource)
    · exact .inl ⟨rfl, dashed_eq_iff.2 (.inr (.inl hfield))⟩
    · exact .inr (.inr hsource)
    · exact .inl ⟨rfl, dashed_eq_iff.2 (.inr (.inr hfield))⟩

section

variable {models : List Model} {names : List String} {graph : Json}

theorem linkable_of_target? {f : Field} {found : Option String} (h : target? names f = .ok found) :
    f.Linkable := by
  rw [target?] at h
  rw [Field.Linkable]
  split at h
  · next s hs => simp [hs]
  · simp at h
  · simp at h
  · next hstr harr hobj =>
      split
      · next item items hitems => exact absurd hitems (harr item items)
      · next member members hmembers => exact absurd hmembers (hobj member members)
      · trivial

theorem linkable_of_edgesOf {m : Model} {fs : List Field} {found : List Edge}
    (h : edgesOf names m fs = .ok found) : ∀ f ∈ fs, f.Linkable := by
  induction fs generalizing found with
  | nil => exact fun f hf => absurd hf List.not_mem_nil
  | cons f fs ih =>
      obtain ⟨target, htarget, hrest⟩ := bind_eq_ok_iff.1 h
      obtain ⟨rest, hedges, -⟩ := bind_eq_ok_iff.1 hrest
      exact List.forall_mem_cons.2 ⟨linkable_of_target? htarget, ih hedges⟩

theorem exists_of_mapM_eq_ok {ε α β : Type} {f : α → Except ε β} {xs : List α} {ys : List β}
    (h : xs.mapM f = .ok ys) : ∀ x ∈ xs, ∃ y, f x = .ok y := by
  induction xs generalizing ys with
  | nil => exact fun x hx => absurd hx List.not_mem_nil
  | cons x xs ih =>
      rw [List.mapM_cons] at h
      obtain ⟨y, hy, hrest⟩ := bind_eq_ok_iff.1 h
      obtain ⟨more, hmore, -⟩ := bind_eq_ok_iff.1 hrest
      exact List.forall_mem_cons.2 ⟨⟨y, hy⟩, ih hmore⟩

theorem eq_edgesTo_of_edges {found : List Edge} (h : edges models = .ok found) :
    found = edgesTo (models.map Model.name) models := by
  obtain ⟨lists, hlists, -⟩ := map_eq_ok_iff.1 h
  have hlinkable : ∀ m ∈ models, ∀ f ∈ m.fields, f.Linkable := by
    intro m hm
    obtain ⟨es, hes⟩ := exists_of_mapM_eq_ok hlists m hm
    exact linkable_of_edgesOf hes
  exact Except.ok.inj (h.symm.trans (edges_eq hlinkable))

theorem edgeIds_toJson (h : toJson models = .ok graph) :
    edgeIds graph = (edgesTo (models.map Model.name) models).map fun e => .str e.id := by
  obtain ⟨found, hfound, hgraph⟩ := bind_eq_ok_iff.1 h
  obtain rfl := Except.ok.inj hgraph
  rw [← eq_edgesTo_of_edges hfound]
  have hids : edgeIds (.obj [("nodes", .arr ((layout models).map Node.toJson)),
      ("edges", .arr (found.map Edge.toJson))]) =
        (found.map Edge.toJson).filterMap (Json.get? "id") := rfl
  rw [hids, List.filterMap_map, ← List.filterMap_eq_map']
  rfl

theorem nodup_edgesTo (hnames : (models.map Model.name).Nodup)
    (hfields : ∀ m ∈ models, (m.fields.map Field.name).Nodup) : (edgesTo names models).Nodup := by
  rw [edgesTo, List.nodup_flatMap]
  -- Edges of one model have different fields, those of different models different sources.
  constructor
  · intro m hm
    refine List.pairwise_filterMap.2 ((List.pairwise_map.1 (hfields m hm)).imp ?_)
    rintro f f' hne e he e' he' rfl
    obtain ⟨-, -, -, -, hfield⟩ := edge?_eq_some_iff.1 he
    obtain ⟨-, -, -, -, hfield'⟩ := edge?_eq_some_iff.1 he'
    exact hne (hfield.symm.trans hfield')
  · refine (List.pairwise_map.1 hnames).imp ?_
    rintro m m' hne e he he'
    obtain ⟨f, -, hf⟩ := List.mem_filterMap.1 he
    obtain ⟨f', -, hf'⟩ := List.mem_filterMap.1 he'
    obtain ⟨-, -, -, hsource, -⟩ := edge?_eq_some_iff.1 hf
    obtain ⟨-, -, -, hsource', -⟩ := edge?_eq_some_iff.1 hf'
    exact hne (hsource.symm.trans hsource')

theorem nodup_ids_iff {es : List Edge} (h : es.Nodup) :
    (es.map fun e => Json.str e.id).Nodup ↔
      es.Pairwise fun e e' => ¬ e.Shadows e' ∧ ¬ e'.Shadows e := by
  have hdistinct : (es.map fun e => Json.str e.id).Nodup ↔
      es.Pairwise fun e e' => e ≠ e' ∧ ¬ e.Shadows e' ∧ ¬ e'.Shadows e := by
    rw [List.Nodup, List.pairwise_map]
    simp only [ne_eq, Json.str.injEq, id_eq_iff, not_or]
  rw [hdistinct, List.pairwise_and_iff]
  exact and_iff_right h

theorem exists_of_mem_edgesTo {ms : List Model} {e : Edge} (h : e ∈ edgesTo names ms) :
    ∃ m ∈ ms, ∃ f ∈ m.fields, e.source = m.name ∧ e.field = f.name := by
  obtain ⟨m, hm, he⟩ := List.mem_flatMap.1 h
  obtain ⟨f, hf, hedge⟩ := List.mem_filterMap.1 he
  obtain ⟨-, -, -, hsource, hfield⟩ := edge?_eq_some_iff.1 hedge
  exact ⟨m, hm, f, hf, hsource, hfield⟩

end

section

variable {e e' : Edge}

theorem dash_mem (a b : String) : '-' ∈ (a ++ "-" ++ b).toList := by
  simp

theorem not_shadows_of_target (htarget : '-' ∉ e.target.toList)
    (hsource : '-' ∉ e'.source.toList) : ¬ e.Shadows e' := by
  rintro (⟨m, hgoesOn, -⟩ | ⟨-, m, -, hbehind⟩)
  · rw [hgoesOn] at hsource
    exact hsource (dash_mem _ _)
  · rw [hbehind] at htarget
    exact htarget (dash_mem _ _)

theorem prefix_of_shadows (hfield : '-' ∉ e.field.toList) (hfield' : '-' ∉ e'.field.toList)
    (h : e.Shadows e') : (e.source ++ "-" ++ e.field).toList <+: e'.source.toList := by
  rcases h with ⟨m, hsource, hbehind⟩ | ⟨-, m, hgoesOn, -⟩
  · rw [hsource]
    -- The second source goes on with the field of the first edge, if no dash is in that one.
    rcases dashed_eq_iff.1 hbehind with ⟨rfl, -⟩ | ⟨n, rfl, -⟩ | ⟨n, hlonger, -⟩
    · exact List.prefix_rfl
    · exact ⟨'-' :: n.toList, by simp⟩
    · rw [hlonger] at hfield
      exact absurd (dash_mem _ _) hfield
  · rw [hgoesOn] at hfield'
    exact absurd (dash_mem _ _) hfield'

end

theorem nodup_edgeIds_iff {models : List Model} {graph : Json}
    (hnames : (models.map Model.name).Nodup)
    (hfields : ∀ m ∈ models, (m.fields.map Field.name).Nodup)
    (h : toJson models = .ok graph) :
    ((edgeIds graph).Nodup ↔ (edgesTo (models.map Model.name) models).Pairwise
      fun e e' => ¬ e.Shadows e' ∧ ¬ e'.Shadows e) ∧
    ((∀ m ∈ models, '-' ∉ m.name.toList) → (edgeIds graph).Nodup) ∧
    ((∀ m ∈ models, ∀ f ∈ m.fields, '-' ∉ f.name.toList) →
      (∀ m ∈ models, ∀ f ∈ m.fields, ∀ m' ∈ models,
        ¬ (m.name ++ "-" ++ f.name).toList <+: m'.name.toList) → (edgeIds graph).Nodup) := by
  have hiff : (edgeIds graph).Nodup ↔ (edgesTo (models.map Model.name) models).Pairwise
      fun e e' => ¬ e.Shadows e' ∧ ¬ e'.Shadows e := by
    rw [edgeIds_toJson h]
    exact nodup_ids_iff (nodup_edgesTo hnames hfields)
  have hnone (hshadows : ∀ e ∈ edgesTo (models.map Model.name) models,
      ∀ e' ∈ edgesTo (models.map Model.name) models, ¬ e.Shadows e') : (edgeIds graph).Nodup := by
    refine hiff.2 (List.pairwise_of_forall_mem_list fun e he e' he' => ?_)
    exact ⟨hshadows e he e' he', hshadows e' he' e he⟩
  refine ⟨hiff, fun hplain => ?_, fun hwords hapart => ?_⟩
  · have hname : ∀ name ∈ models.map Model.name, '-' ∉ name.toList := by
      intro name hmem
      obtain ⟨m, hm, rfl⟩ := List.mem_map.1 hmem
      exact hplain m hm
    refine hnone fun e he e' he' => ?_
    exact not_shadows_of_target (hname _ (mem_edgesTo he).2) (hname _ (mem_edgesTo he').1)
  · refine hnone fun e he e' he' hshadows => ?_
    obtain ⟨m, hm, f, hf, hsource, hfield⟩ := exists_of_mem_edgesTo he
    obtain ⟨m', hm', f', hf', hsource', hfield'⟩ := exists_of_mem_edgesTo he'
    have hprefix := prefix_of_shadows (hfield ▸ hwords m hm f hf) (hfield' ▸ hwords m' hm' f' hf')
      hshadows
    rw [hsource, hfield, hsource'] at hprefix
    exact hapart m hm f hf m' hm' hprefix

def orderModels : List Model :=
  [⟨"Order", "order.js", [{ name := "line", ref := .str "Order-item" }]⟩,
    ⟨"Order-item", "order-item.js", [{ name := "owner", ref := .str "User" },
      { name := "order", ref := .str "Order" }]⟩,
    ⟨"User", "user.js", []⟩]

theorem orderModels_ids :
    ((orderModels.map Model.name).Nodup ∧ ∀ m ∈ orderModels, (m.fields.map Field.name).Nodup) ∧
    ∃ graph, toJson orderModels = .ok graph ∧ (edgeIds graph).Nodup ∧
      edgeIds graph = [.str "Order-line-Order-item", .str "Order-item-owner-User",
        .str "Order-item-order-Order"] := by
  have hnames : (orderModels.map Model.name).Nodup := by decide
  have hfields : ∀ m ∈ orderModels, (m.fields.map Field.name).Nodup := by
    simp [orderModels]
  have hwords : ∀ m ∈ orderModels, ∀ f ∈ m.fields, '-' ∉ f.name.toList := by
    simp [orderModels]
  have hapart : ∀ m ∈ orderModels, ∀ f ∈ m.fields, ∀ m' ∈ orderModels,
      ¬ (m.name ++ "-" ++ f.name).toList <+: m'.name.toList := by
    simp [orderModels]
  obtain ⟨graph, hgraph⟩ : ∃ graph, toJson orderModels = .ok graph := ⟨_, rfl⟩
  obtain ⟨-, -, hdistinct⟩ := nodup_edgeIds_iff hnames hfields hgraph
  exact ⟨⟨hnames, hfields⟩, graph, hgraph, hdistinct hwords hapart, edgeIds_toJson hgraph⟩

def dashedModels : List Model :=
  [⟨"Order", "order.js", [{ name := "item", ref := .str "owner-User" }]⟩,
    ⟨"Order-item", "order-item.js", [{ name := "owner", ref := .str "User" }]⟩,
    ⟨"User", "user.js", []⟩, ⟨"owner-User", "owner-user.js", []⟩]

theorem dashedModels_share_id :
    (dashedModels.map Model.name).Nodup ∧ (∀ m ∈ dashedModels, (m.fields.map Field.name).Nodup) ∧
    ∃ graph, toJson dashedModels = .ok graph ∧ ¬ (edgeIds graph).Nodup := by
  have hids : ¬ [Json.str "Order-item-owner-User", Json.str "Order-item-owner-User"].Nodup := by
    simp
  exact ⟨by decide, by simp [dashedModels], _, rfl, hids⟩

end SchemaDiagram.Diagram
