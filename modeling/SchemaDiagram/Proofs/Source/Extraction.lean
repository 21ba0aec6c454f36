import SchemaDiagram.Proofs.Source.Bindings
import SchemaDiagram.Schema.Extraction

/-!
A written source text is extracted as the models that it describes.
-/

namespace SchemaDiagram.Written

open SchemaDiagram.Text

theorem occursIn_sourceText {schemas : List Schema} (hne : schemas ≠ []) :
    occursIn "Schema".toList (sourceText schemas) = true := by
  cases schemas with
  | nil => exact absurd rfl hne
  | cons s ss =>
      refine occursIn_iff.2 ⟨s.binding ++ ['n', 'e', 'w', ' '],
        '(' :: (s.literal ++ closer) ++ (s.registration ++ sourceText ss), ?_⟩
      simp [sourceText_cons, Schema.text, Schema.construction, newSchema]

theorem resolve_sourceText (path : List Char) {earlier later : List Schema} {s : Schema}
    {lookback : Int} (hnodup : ((earlier ++ s :: later).map (·.var.chars)).Nodup)
    (hlookback : (s.var.chars.length : Int) + 9 ≤ lookback) :
    Naming.resolve (sourceText (earlier ++ s :: later))
      (((sourceText earlier).length + s.binding.length : Nat) : Int)
      (Declaration.index (sourceText (earlier ++ s :: later))) path lookback =
        s.modelName path := by
  rw [Naming.resolve, find?_sourceText earlier later s hlookback]
  simp only [lookup_index hnodup]
  cases hname : s.registered with
  | none => simp [Schema.modelName, hname]
  | some name => simp [Schema.modelName, hname]

theorem body_literal (s : Schema) (start : Nat) :
    SchemaBlock.body ⟨start, s.literal⟩ = s.inside := by
  rw [SchemaBlock.body, s.literal_eq]
  simp

theorem parseFields_inside (s : Schema) : parseFields s.inside = s.members.map Member.field :=
  parseFields_members s.nonempty

theorem ofBlock_sourceText (path : String) {earlier later : List Schema} {s : Schema}
    {lookback : Int} (hnodup : ((earlier ++ s :: later).map (·.var.chars)).Nodup)
    (hlookback : (s.var.chars.length : Int) + 9 ≤ lookback) :
    Extraction.ofBlock (sourceText (earlier ++ s :: later))
      (Declaration.index (sourceText (earlier ++ s :: later))) path lookback
      ⟨(sourceText earlier).length + s.binding.length, s.literal⟩ = .ok (s.model path) := by
  have hname := resolve_sourceText path.toList hnodup hlookback
  have hne : s.members.map Member.field ≠ [] := by simpa using s.nonempty
  rw [Extraction.ofBlock, body_literal, parseFields_inside]
  split
  · next hnil => exact absurd hnil hne
  · simp only [hname]
    rfl

theorem map_ofBlock_blocksFrom (path : String) (lookback : Int) (schemas : List Schema)
    (hnodup : (schemas.map (·.var.chars)).Nodup)
    (hlookback : ∀ s ∈ schemas, (s.var.chars.length : Int) + 9 ≤ lookback)
    (earlier later : List Schema) (hsplit : schemas = earlier ++ later) :
    (blocksFrom (sourceText earlier).length later).map
        (Extraction.ofBlock (sourceText schemas) (Declaration.index (sourceText schemas)) path
          lookback) =
      later.map fun s => .ok (s.model path) := by
  -- The text stays the whole one, so what is left of the later schemas goes to the earlier ones.
  induction later generalizing earlier with
  | nil => rfl
  | cons s later ih =>
      have hhead : Extraction.ofBlock (sourceText schemas)
          (Declaration.index (sourceText schemas)) path lookback
          ⟨(sourceText earlier).length + s.binding.length, s.literal⟩ = .ok (s.model path) := by
        subst hsplit
        exact ofBlock_sourceText path hnodup (hlookback s (by simp))
      have htail := ih (earlier ++ [s]) (by simp [hsplit])
      have hlength : (sourceText (earlier ++ [s])).length =
          (sourceText earlier).length + s.text.length := by
        simp [sourceText]
      rw [hlength] at htail
      rw [blocksFrom, List.map_cons, List.map_cons, hhead, htail]

theorem ofFile_sourceText (path : String) (lookback : Int) (schemas : List Schema)
    (hnodup : (schemas.map (·.var.chars)).Nodup)
    (hlookback : ∀ s ∈ schemas, (s.var.chars.length : Int) + 9 ≤ lookback) :
    Extraction.ofFile ⟨path, String.ofList (sourceText schemas)⟩ lookback =
      schemas.map (Schema.model path) := by
  have hresults : Extraction.results ⟨path, String.ofList (sourceText schemas)⟩ lookback =
      schemas.map fun s => .ok (s.model path) := by
    by_cases hne : schemas = []
    · subst hne
      rfl
    · have hblocks := map_ofBlock_blocksFrom path lookback schemas hnodup hlookback []
        schemas rfl
      simp only [Extraction.results, String.toList_ofList, occursIn_sourceText hne, if_true,
        allIn_sourceText]
      exact hblocks
  rw [Extraction.ofFile, hresults, List.filterMap_map, ← List.filterMap_eq_map]
  rfl

def registeredAndBare : List Schema :=
  [{ var := ⟨['l', 'e', 't', 'S', 'c', 'h', 'e', 'm', 'a'], by decide, by decide⟩
     registered := some ⟨['L', 'e', 't'], by decide, by decide⟩
     members :=
       [⟨⟨['t', 'y', 'p', 'e'], by decide, by decide⟩, .plain .string⟩,
        ⟨⟨['c', 'o', 'n', 's', 't'], by decide, by decide⟩, .array .date⟩]
     nonempty := by simp },
   { var := ⟨['s', 'c', 'h', 'e', 'm', 'a'], by decide, by decide⟩
     registered := none
     members :=
       [⟨⟨['r', 'e', 'f'], by decide, by decide⟩,
         .object .objectId [.required, .ref ⟨['L', 'e', 't'], by decide, by decide⟩]⟩]
     nonempty := by simp }]

theorem ofFile_registeredAndBare :
    String.ofList (sourceText registeredAndBare) =
        "const letSchema = new Schema(\x7b type: String, const: [Date] \x7d);\n" ++
        "mongoose.model('Let', letSchema);\n" ++
        "const schema = new Schema(\x7b ref: \x7b type: ObjectId, required: true, " ++
        "ref: 'Let' \x7d \x7d);\n" ∧
    Extraction.ofFile ⟨"models/post.ts", String.ofList (sourceText registeredAndBare)⟩ 200 =
      [{ name := "Let"
         filePath := "models/post.ts"
         fields :=
           [{ name := "type", type := .string },
            { name := "const", type := .date, isArray := true }] },
       { name := "Post"
         filePath := "models/post.ts"
         fields :=
           [{ name := "ref", type := .objectId, required := true, ref := .str "Let" }] }] :=
  ⟨by decide +kernel,
    ofFile_sourceText "models/post.ts" 200 registeredAndBare (by decide) (by decide)⟩

end SchemaDiagram.Written
