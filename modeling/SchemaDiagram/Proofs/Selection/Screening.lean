import SchemaDiagram.Proofs.Text.Search
import SchemaDiagram.Selection

/-!
Quick tests in front of the extraction keep out only texts from which nothing is extracted.
-/

namespace SchemaDiagram

open SchemaDiagram.Text

namespace Text

section

variable {α β : Type} {read : Recogniser α} {before : Option Char} {cs : List Char}

theorem scan_eq_nil {wider : Recogniser β}
    (hwider : ∀ before cs, wider before cs = none → read before cs = none) (place : Nat)
    (h : findFrom? wider before cs = none) : scan read 0 place before cs = [] := by
  induction cs generalizing before place with
  | nil => rfl
  | cons c cs ih =>
      rw [findFrom?] at h
      cases hwide : wider before (c :: cs) with
      | some found =>
          rw [hwide] at h
          exact absurd h (by simp)
      | none =>
          rw [hwide] at h
          have hread : read before (c :: cs) = none := hwider before (c :: cs) hwide
          rw [scan, hread]
          exact ih (place + 1) h

end

theorem trimLeft_suffix (cs : List Char) : trimLeft cs <:+ cs :=
  List.dropWhile_suffix isBlank

theorem literal?_suffix {word : String} {cs rest : List Char} (h : literal? word cs = some rest) :
    rest <:+ cs :=
  ⟨word.toList, literal?_eq_some_iff.1 h⟩

theorem dropLiteral_suffix (word : String) (cs : List Char) : dropLiteral word cs <:+ cs := by
  cases h : literal? word cs with
  | none => rw [dropLiteral, h]; exact List.suffix_refl cs
  | some rest => rw [dropLiteral, h]; exact literal?_suffix h

end Text

theorem occursIn_of_constructorCall? {before : Option Char} {cs rest : List Char}
    (h : constructorCall? before cs = some rest) : occursIn "Schema".toList cs = true := by
  simp only [constructorCall?, keyword?, Option.bind_eq_bind, Option.bind_eq_some_iff] at h
  obtain ⟨behindNew, hnew, behindBlanks, hblanks, behindSchema, hschema, -⟩ := h
  have hkeyword : behindNew <:+ cs := by
    split at hnew
    · exact literal?_suffix hnew
    · exact absurd hnew (by simp)
  have hgap : behindBlanks <:+ behindNew := by
    rw [blanks1?_eq_some hblanks]
    exact trimLeft_suffix behindNew
  have hword : "Schema".toList <:+: dropLiteral "mongoose." behindBlanks := by
    refine List.IsPrefix.isInfix ⟨behindSchema, ?_⟩
    exact literal?_eq_some_iff.1 hschema
  have hsuffix : dropLiteral "mongoose." behindBlanks <:+ cs :=
    (dropLiteral_suffix "mongoose." behindBlanks).trans (hgap.trans hkeyword)
  exact occursIn_iff.2 (hword.trans hsuffix.isInfix)

def call? : Recogniser Unit := fun before cs => (constructorCall? before cs).map ((), ·)

theorem call?_eq_none {before : Option Char} {cs : List Char} :
    call? before cs = none ↔ constructorCall? before cs = none :=
  Option.map_eq_none_iff

theorem findFrom?_call_of_not_occursIn {cs : List Char}
    (h : occursIn "Schema".toList cs = false) : findFrom? call? none cs = none := by
  refine Option.eq_none_iff_forall_ne_some.2 fun found hfound => ?_
  obtain ⟨earlier, left, rest, hsuffix, hread⟩ := exists_read_of_findFrom? hfound
  obtain ⟨rest', hcall, -⟩ := Option.map_eq_some_iff.1 hread
  have hleft := occursIn_iff.1 (occursIn_of_constructorCall? hcall)
  have hoccurs := occursIn_iff.2 (hleft.trans hsuffix.isInfix)
  rw [h] at hoccurs
  exact absurd hoccurs (by simp)

theorem findFrom?_call_of_not_hasSchema {cs : List Char} (h : hasSchema cs = false) :
    findFrom? call? none cs = none := by
  rw [hasSchema, Bool.and_eq_false_iff] at h
  rcases h with hword | hcall
  · exact findFrom?_call_of_not_occursIn hword
  · exact Option.isSome_eq_false_iff.1 hcall |> Option.isNone_iff_eq_none.1

theorem opening?_eq_none (length : Nat) (before : Option Char) (cs : List Char)
    (h : call? before cs = none) : SchemaBlock.opening? length before cs = none := by
  rw [call?_eq_none] at h
  simp [SchemaBlock.opening?, constructorOfLiteral?, h]

theorem allIn_eq_nil {cs : List Char} (h : findFrom? call? none cs = none) :
    SchemaBlock.allIn cs = [] := by
  have hnone : SchemaBlock.constructors cs = [] := scan_eq_nil (opening?_eq_none cs.length) 0 h
  rw [SchemaBlock.allIn, hnone, List.filterMap_nil]

namespace Extraction

def ofWholeFile (f : SourceFile) (lookback : Int) : List Model :=
  let cs := f.content.toList
  ((SchemaBlock.allIn cs).map (ofBlock cs (Declaration.index cs) f.path lookback)).filterMap
    Except.toOption

theorem ofFile_eq_ofWholeFile (f : SourceFile) (lookback : Int) :
    ofFile f lookback = ofWholeFile f lookback := by
  rw [ofFile, ofWholeFile, results]
  cases h : occursIn "Schema".toList f.content.toList with
  | true => rfl
  | false =>
      have hnone : SchemaBlock.allIn f.content.toList = [] :=
        allIn_eq_nil (findFrom?_call_of_not_occursIn h)
      rw [hnone]
      rfl

theorem ofFile_of_not_hasSchema {f : SourceFile} (h : hasSchema f.content.toList = false)
    (lookback : Int) : ofFile f lookback = [] := by
  have hnone : SchemaBlock.allIn f.content.toList = [] :=
    allIn_eq_nil (findFrom?_call_of_not_hasSchema h)
  rw [ofFile_eq_ofWholeFile, ofWholeFile, hnone]
  rfl

theorem hasSchema_of_ofFile {f : SourceFile} {lookback : Int} (h : ofFile f lookback ≠ []) :
    hasSchema f.content.toList = true := by
  cases hscreen : hasSchema f.content.toList with
  | true => rfl
  | false => exact absurd (ofFile_of_not_hasSchema hscreen lookback) h

theorem flatMap_ofFile_filter {keep : SourceFile → Bool} {files : List SourceFile}
    {lookback : Int} (h : ∀ f ∈ files, keep f = false → ofFile f lookback = []) :
    (files.filter keep).flatMap (ofFile · lookback) = files.flatMap (ofFile · lookback) := by
  induction files with
  | nil => rfl
  | cons f files ih =>
      have hrest := ih fun g hg => h g (List.mem_cons_of_mem f hg)
      cases hkeep : keep f with
      | true => simp [hkeep, hrest]
      | false =>
          have hnone : ofFile f lookback = [] := h f (by simp) hkeep
          simp [hkeep, hrest, hnone]

end Extraction

namespace Selection

def nonEmpty (s : Selection) (content : String → String) : List SourceFile :=
  (s.paths.map fun p => SourceFile.mk p (content p)).filter (!·.content.isEmpty)

theorem flatMap_materialise (s : Selection) (content : String → String) (lookback : Int) :
    (s.materialise content).flatMap (Extraction.ofFile · lookback) =
      (s.nonEmpty content).flatMap (Extraction.ofFile · lookback) := by
  let weak := (s.weak.map fun p => SourceFile.mk p (content p)).filter (!·.content.isEmpty)
  have hscreened : (s.weak.map fun p => SourceFile.mk p (content p)).filter
      (fun f => !f.content.isEmpty && hasSchema f.content.toList) =
        weak.filter fun f => hasSchema f.content.toList := by
    rw [List.filter_filter]
    exact List.filter_congr fun f _ => Bool.and_comm _ _
  have hweak : (weak.filter fun f => hasSchema f.content.toList).flatMap
      (Extraction.ofFile · lookback) = weak.flatMap (Extraction.ofFile · lookback) :=
    Extraction.flatMap_ofFile_filter fun f _ hscreen =>
      Extraction.ofFile_of_not_hasSchema hscreen lookback
  rw [materialise, nonEmpty, paths, List.map_append, List.filter_append, List.flatMap_append,
    List.flatMap_append, hscreened, hweak]

theorem screening_loses_nothing (s : Selection) (content : String → String)
    (registry : NameRegistry) (lookback : Int) (f : SourceFile) :
    Extraction.ofFiles (s.materialise content) registry lookback =
      Extraction.ofFiles (s.nonEmpty content) registry lookback ∧
    Extraction.ofFile f lookback = Extraction.ofWholeFile f lookback ∧
    (Extraction.ofFile f lookback ≠ [] → hasSchema f.content.toList = true) := by
  refine ⟨?_, Extraction.ofFile_eq_ofWholeFile f lookback, Extraction.hasSchema_of_ofFile⟩
  rw [Extraction.ofFiles, Extraction.ofFiles, flatMap_materialise]

def wideBlanks : SourceFile :=
  ⟨"lib/shop.ts", "new\u2003Schema<Shop, Model<Shop>>\u00a0(\u3000\x7b open: Boolean \x7d)"⟩

theorem wideBlanks_screened :
    Extraction.ofFile wideBlanks 200 ≠ [] ∧ hasSchema wideBlanks.content.toList = true :=
  have hfound : Extraction.ofFile wideBlanks 200 ≠ [] := by
    intro hnone
    have hlength : (Extraction.ofFile wideBlanks 200).length = 1 := by decide +kernel
    rw [hnone] at hlength
    exact absurd hlength (by decide)
  ⟨hfound, (screening_loses_nothing ⟨[], []⟩ (fun _ => "") .empty 200 wideBlanks).2.2 hfound⟩

end Selection

end SchemaDiagram
