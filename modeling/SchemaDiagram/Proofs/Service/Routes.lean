import Mathlib.Data.List.Basic
import SchemaDiagram.Service.Route
import SchemaDiagram.Text.Scan

namespace SchemaDiagram.Service

theorem mem_named_of_ofRequest {m : Method} {path : List Char} {resource : Resource}
    (h : Target.ofRequest m path = .resource resource) :
    resource ∈ Resource.named path ∧ resource.allows m = true := by
  simp only [Target.ofRequest] at h
  split at h
  · split at h <;> simp at h
  · split at h
    · next found hfind =>
        obtain rfl := Target.resource.inj h
        exact ⟨List.mem_of_find?_eq_some hfind, by simpa using List.find?_some hfind⟩
    · simp at h

theorem withoutEnd_of_not_mem {cs : List Char} (h : '\n' ∉ cs) : Resource.withoutEnd cs = cs := by
  refine if_neg fun hlast => h ?_
  exact List.mem_of_getLast? hlast

theorem diagram?_append {cs : List Char} (h : '\n' ∉ cs) :
    Resource.diagram? ("/diagrams/".toList ++ cs) = some (.diagram (String.ofList cs)) := by
  have hrest : "/diagrams/".toList.isPrefixOf? ("/diagrams/".toList ++ cs) = some cs := by
    simp [List.isPrefixOf?]
  have hline : cs.contains '\n' = false := by simpa using h
  simp only [Resource.diagram?, hrest, withoutEnd_of_not_mem h, hline]
  rfl

theorem diagram?_of_ofRequest {m : Method} {path : List Char} {repository : String}
    (h : Target.ofRequest m path = .resource (.diagram repository)) :
    Resource.diagram? path = some (.diagram repository) := by
  have hnamed := (mem_named_of_ofRequest h).1
  simp only [Resource.named, List.mem_append, Option.mem_toList] at hnamed
  rcases hnamed with ((hhealth | hscan) | hlist) | hdiagram
  · split at hhealth <;> simp at hhealth
  · split at hscan <;> simp at hscan
  · split at hlist <;> simp at hlist
  · exact hdiagram

theorem subset_of_diagram? {cs : List Char} {repository : String}
    (h : Resource.diagram? cs = some (.diagram repository)) : repository.toList ⊆ cs := by
  simp only [Resource.diagram?] at h
  split at h
  · simp at h
  · next rest hrest =>
      split at h
      · simp at h
      · obtain rfl := Resource.diagram.inj (Option.some.inj h)
        rw [String.toList_ofList, Resource.withoutEnd]
        have hsuffix : rest <:+ cs := ⟨_, Text.isPrefixOf?_eq_some_iff.1 hrest⟩
        split
        · exact List.Subset.trans (List.dropLast_subset rest) hsuffix.subset
        · exact hsuffix.subset

theorem oneLine_of_diagram? {cs : List Char} {repository : String}
    (h : Resource.diagram? cs = some (.diagram repository)) : '\n' ∉ repository.toList := by
  simp only [Resource.diagram?] at h
  split at h
  · simp at h
  · next rest hrest =>
      split at h
      · simp at h
      · next hline =>
          obtain rfl := Resource.diagram.inj (Option.some.inj h)
          simpa using hline

theorem ofRequest_diagram {m : Method} (hm : m = .get ∨ m = .delete) {cs : List Char}
    (h : '\n' ∉ cs) :
    Target.ofRequest m ("/diagrams/".toList ++ cs) = .resource (.diagram (String.ofList cs)) := by
  have hline : '\n' ∉ "/diagrams/".toList ++ cs := by
    rw [List.mem_append, not_or]
    exact ⟨by decide, h⟩
  have hhealth : String.ofList ("/diagrams/".toList ++ cs) ≠ "/health" := by
    intro heq
    have hchars := congrArg String.toList heq
    simp at hchars
  have hlist : String.ofList ("/diagrams/".toList ++ cs) ≠ "/diagrams" := by
    intro heq
    have hchars := congrArg String.toList heq
    simp at hchars
  -- A diagram may have the name of the path for scans, which takes neither method.
  have hgeneration : Resource.generation.allows m = false := by
    rcases hm with rfl | rfl <;> rfl
  have hdiagram : (Resource.diagram (String.ofList cs)).allows m = true := by
    rcases hm with rfl | rfl <;> rfl
  simp only [Target.ofRequest, Resource.named, withoutEnd_of_not_mem hline, if_neg hhealth,
    if_neg hlist, diagram?_append h]
  generalize String.ofList ("/diagrams/".toList ++ cs) = path
  by_cases hscan : path = "/diagrams/generate"
  · simp [hscan, hgeneration, hdiagram]
  · simp [hscan, hdiagram]

theorem ofRequest_path {m : Method} (hm : m = .get ∨ m = .delete) {repository : String}
    (h : '\n' ∉ repository.toList) :
    Target.ofRequest m ("/diagrams/" ++ repository).toList = .resource (.diagram repository) := by
  rw [String.toList_append, ofRequest_diagram hm h, String.ofList_toList]

section

variable {m : Method} {path : List Char} {repository : String}

theorem oneLine_of_ofRequest (h : Target.ofRequest m path = .resource (.diagram repository)) :
    '\n' ∉ repository.toList :=
  oneLine_of_diagram? (diagram?_of_ofRequest h)

theorem subset_of_ofRequest (h : Target.ofRequest m path = .resource (.diagram repository)) :
    repository.toList ⊆ path :=
  subset_of_diagram? (diagram?_of_ofRequest h)

end

end SchemaDiagram.Service
