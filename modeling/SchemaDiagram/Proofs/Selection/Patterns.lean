import SchemaDiagram.Config.File
import SchemaDiagram.Proofs.Text.Lowering
import SchemaDiagram.Selection

/-!
Patterns for paths. They are looked for in lower case, and are not lowered themselves: one with a
character that has another lower-case form matches no path, not even one that it stands in.
-/

namespace SchemaDiagram.Config.Selector

open SchemaDiagram.Text

/-- A pattern that is in lower case already. -/
def Folded (pattern : String) : Prop :=
  lower pattern.toList = pattern.toList

instance (pattern : String) : Decidable (Folded pattern) :=
  inferInstanceAs (Decidable (lower pattern.toList = pattern.toList))

def slashed (cs : List Char) : List Char :=
  if cs.head? = some '/' then cs else '/' :: cs

theorem anchored_eq (path : String) : anchored path = slashed (lower path.toList) := by
  unfold anchored slashed
  split
  · next heq => rw [heq, List.head?_cons, if_pos rfl]
  · next hne =>
      rw [if_neg]
      intro hhead
      obtain ⟨more, hmore⟩ := List.head?_eq_some_iff.1 hhead
      exact hne more hmore

theorem suffix_slashed (cs : List Char) : cs <:+ slashed cs := by
  unfold slashed
  split
  · exact List.suffix_refl cs
  · exact List.suffix_cons '/' cs

theorem settled_slashed {cs : List Char} (h : ∀ c ∈ cs, Settled c) : ∀ c ∈ slashed cs, Settled c := by
  unfold slashed
  split
  · exact h
  · exact List.forall_mem_cons.2 ⟨by decide, h⟩

structure Lowers (written lowered : List Char) : Prop where
  keeps : ∀ {p : List Char}, lower p = p → p <:+: written → p <:+: lowered
  settled : ∀ c ∈ lowered, Settled c

theorem lowers_path (cs : List Char) : Lowers cs (lower cs) where
  keeps := infix_lowerFrom
  settled := fun _ hc => (mem_lowerFrom hc).1

theorem lowers_slashed (cs : List Char) : Lowers (slashed cs) (slashed (lower cs)) where
  keeps := by
    intro p hp h
    by_cases hhead : cs.head? = some '/'
    · rw [slashed, if_pos hhead] at h
      exact (infix_lowerFrom hp h).trans (suffix_slashed _).isInfix
    · have hlowered : (lower cs).head? ≠ some '/' := fun heq => hhead (head_lowerFrom heq)
      rw [slashed, if_neg hhead, List.infix_cons_iff, List.prefix_cons_iff] at h
      rw [slashed, if_neg hlowered, List.infix_cons_iff, List.prefix_cons_iff]
      rcases h with (hnil | ⟨tail, hsplit, htail⟩) | h
      · exact .inl (.inl hnil)
      · have hsettled : ∀ c ∈ tail, Settled c := fun c hc =>
          lower_eq_self_iff.1 hp c (by simp [hsplit, hc])
        exact .inl (.inr ⟨tail, hsplit, prefix_lowerFrom (lower_eq_self_iff.2 hsettled) htail⟩)
      · exact .inr (infix_lowerFrom hp h)
  settled := settled_slashed fun _ hc => (mem_lowerFrom hc).1

theorem lowers_anchored (path : String) : Lowers (slashed path.toList) (anchored path) :=
  anchored_eq path ▸ lowers_slashed path.toList

theorem lowers_baseName (cs : List Char) : Lowers (baseName cs) (baseName (lower cs)) := by
  obtain ⟨before, hbase⟩ := exists_baseName_lower cs
  rw [hbase]
  exact ⟨infix_lowerFrom, fun _ hc => (mem_lowerFrom hc).1⟩

def AnyIn (patterns : List String) (cs : List Char) : Prop :=
  ∃ p ∈ patterns, p.toList <:+: cs

def folded (patterns : List String) : List String :=
  patterns.filter fun p => Folded p

def unfolded (patterns : List String) : List String :=
  patterns.filter fun p => ¬ Folded p

section

variable {written lowered : List Char} {patterns : List String}

theorem Lowers.folded_of_match (h : Lowers written lowered) {pattern : String}
    (hmatch : pattern.toList <:+: lowered) : Folded pattern :=
  lower_eq_self_of_settled h.settled hmatch

theorem Lowers.anyIn_iff (h : Lowers written lowered) :
    AnyIn patterns lowered ↔ AnyIn (folded patterns) lowered := by
  constructor
  · rintro ⟨p, hp, hmatch⟩
    exact ⟨p, List.mem_filter.2 ⟨hp, by simpa using h.folded_of_match hmatch⟩, hmatch⟩
  · rintro ⟨p, hp, hmatch⟩
    exact ⟨p, (List.mem_filter.1 hp).1, hmatch⟩

theorem Lowers.anyIn_written (h : Lowers written lowered) (hwritten : AnyIn patterns written) :
    AnyIn (folded patterns) lowered ∨ AnyIn (unfolded patterns) written := by
  obtain ⟨p, hp, hmatch⟩ := hwritten
  by_cases hfolded : Folded p
  · exact .inl ⟨p, List.mem_filter.2 ⟨hp, by simpa using hfolded⟩, h.keeps hfolded hmatch⟩
  · exact .inr ⟨p, List.mem_filter.2 ⟨hp, by simpa using hfolded⟩, hmatch⟩

theorem AnyIn.of_unfolded (h : AnyIn (unfolded patterns) written) : AnyIn patterns written := by
  obtain ⟨p, hp, hmatch⟩ := h
  exact ⟨p, (List.mem_filter.1 hp).1, hmatch⟩

end

section

variable (s : Selector) (path : String)

theorem isExcluded_iff :
    s.isExcluded path = true ↔ AnyIn s.excludePatterns (lower path.toList) := by
  simp only [isExcluded, List.any_eq_true, occursIn_iff, AnyIn]

theorem isModelFile_iff : s.isModelFile path = true ↔ s.isExcluded path = false ∧
    (AnyIn s.modelDirs (anchored path) ∨
      AnyIn s.filenameHints (baseName (lower path.toList))) := by
  simp only [isModelFile, Bool.and_eq_true, Bool.not_eq_true', Bool.or_eq_true, List.any_eq_true,
    occursIn_iff, AnyIn]

def ExcludesWritten : Prop :=
  AnyIn s.excludePatterns path.toList →
    s.isExcluded path = true ∧ ∀ entries, path ∉ (s.select entries).strong

def FindsWritten : Prop :=
  s.isExcluded path = false →
    AnyIn s.modelDirs (slashed path.toList) ∨ AnyIn s.filenameHints (baseName path.toList) →
      s.isModelFile path = true

theorem excludesWritten_iff : s.ExcludesWritten path ↔
    (AnyIn (unfolded s.excludePatterns) path.toList →
      AnyIn (folded s.excludePatterns) (lower path.toList)) := by
  have hpath := lowers_path path.toList
  rw [ExcludesWritten, isExcluded_iff, hpath.anyIn_iff]
  constructor
  · exact fun h hwritten => (h hwritten.of_unfolded).1
  · intro h hwritten
    have hmatched : AnyIn (folded s.excludePatterns) (lower path.toList) :=
      (hpath.anyIn_written hwritten).elim id h
    refine ⟨hmatched, fun entries hmem => ?_⟩
    have hkept := isExcluded_of_isModelFile (isModelFile_of_mem_strong hmem)
    rw [(s.isExcluded_iff path).2 (hpath.anyIn_iff.2 hmatched)] at hkept
    exact absurd hkept (by simp)

theorem findsWritten_iff : s.FindsWritten path ↔ (s.isExcluded path = false →
    AnyIn (unfolded s.modelDirs) (slashed path.toList) ∨
        AnyIn (unfolded s.filenameHints) (baseName path.toList) →
      AnyIn (folded s.modelDirs) (anchored path) ∨
        AnyIn (folded s.filenameHints) (baseName (lower path.toList))) := by
  have hdirs := lowers_anchored path
  have hhints := lowers_baseName path.toList
  rw [FindsWritten, isModelFile_iff, hdirs.anyIn_iff, hhints.anyIn_iff]
  constructor
  · exact fun h hkept hwritten => (h hkept (hwritten.imp .of_unfolded .of_unfolded)).2
  · intro h hkept hwritten
    refine ⟨hkept, ?_⟩
    rcases hwritten with hdir | hhint
    · rcases hdirs.anyIn_written hdir with hmatched | hunfolded
      · exact .inl hmatched
      · exact h hkept (.inl hunfolded)
    · rcases hhints.anyIn_written hhint with hmatched | hunfolded
      · exact .inr hmatched
      · exact h hkept (.inr hunfolded)

end

theorem written_patterns_iff (s : Selector) (path : String) :
    (∀ pattern : String,
      ((∀ whole : String, pattern.toList <:+: whole.toList →
          pattern.toList <:+: lower whole.toList) ↔ Folded pattern) ∧
      (¬ Folded pattern → ¬ pattern.toList <:+: lower path.toList ∧
        ¬ pattern.toList <:+: anchored path ∧
        ¬ pattern.toList <:+: baseName (lower path.toList))) ∧
    (s.ExcludesWritten path ↔
      (AnyIn (unfolded s.excludePatterns) path.toList →
        AnyIn (folded s.excludePatterns) (lower path.toList))) ∧
    (s.FindsWritten path ↔ (s.isExcluded path = false →
      AnyIn (unfolded s.modelDirs) (slashed path.toList) ∨
          AnyIn (unfolded s.filenameHints) (baseName path.toList) →
        AnyIn (folded s.modelDirs) (anchored path) ∨
          AnyIn (folded s.filenameHints) (baseName (lower path.toList)))) := by
  refine ⟨fun pattern => ⟨⟨fun h => ?_, fun h whole => (lowers_path whole.toList).keeps h⟩, ?_⟩,
    s.excludesWritten_iff path, s.findsWritten_iff path⟩
  · exact (lowers_path pattern.toList).folded_of_match (h pattern (List.infix_refl _))
  · intro hunfolded
    exact ⟨fun h => hunfolded ((lowers_path path.toList).folded_of_match h),
      fun h => hunfolded ((lowers_anchored path).folded_of_match h),
      fun h => hunfolded ((lowers_baseName path.toList).folded_of_match h)⟩

theorem default_patterns_match (path : String) :
    ({} : Selector).ExcludesWritten path ∧ ({} : Selector).FindsWritten path := by
  have hnone {cs : List Char} : ¬ AnyIn [] cs := by simp [AnyIn]
  have hexclude : unfolded ({} : Selector).excludePatterns = [] := by decide +kernel
  have hdirs : unfolded ({} : Selector).modelDirs = [] := by decide +kernel
  have hhints : unfolded ({} : Selector).filenameHints = [] := by decide +kernel
  rw [excludesWritten_iff, findsWritten_iff, hexclude, hdirs, hhints]
  exact ⟨fun h => absurd h hnone, fun _ h => absurd h (not_or_intro hnone hnone)⟩

def fixtureSettings : FileTree :=
  let content := "selector:\n  extra_exclude_patterns: ['Fixtures/']\n"
  .directory [(fileName, .file (Utf8.encode content.toList))]

def fixtureConfig : Config :=
  { root := "/"
    selector := { excludePatterns := ({} : Selector).excludePatterns ++ ["Fixtures/"] } }

theorem fixtures_not_excluded :
    (Config.read fixtureSettings [] [] (Path.ofText "")).toOption = some fixtureConfig ∧
    AnyIn fixtureConfig.selector.excludePatterns "Fixtures/models/user.js".toList ∧
    fixtureConfig.selector.isExcluded "Fixtures/models/user.js" = false ∧
    "Fixtures/models/user.js" ∈
      (fixtureConfig.selector.select [⟨"Fixtures/models/user.js", .file⟩]).strong := by
  refine ⟨by decide +kernel, ⟨"Fixtures/", by decide, ?_⟩, by decide +kernel, by decide +kernel⟩
  exact List.IsPrefix.isInfix (by decide)

end SchemaDiagram.Config.Selector
