import SchemaDiagram.Http.Basic
import SchemaDiagram.Proofs.Text.Reading

namespace SchemaDiagram.Http

open SchemaDiagram.Text

def bareFront (cs : List Char) : List Char :=
  match literal? "URL:" (trimLeft cs) with
  | some rest => trimLeft rest
  | none => trimLeft cs

def KeepsEnd (cs : List Char) : Prop :=
  ∀ c ∈ cs.getLast?, isBlank c = false ∧ c ≠ '>'

section

variable {cs tail : List Char}

theorem trimLeft_append_slash (cs tail : List Char) :
    trimLeft (cs ++ '/' :: tail) = trimLeft cs ++ '/' :: tail := by
  induction cs with
  | nil => exact trimLeft_cons (by decide) tail
  | cons c cs ih =>
      by_cases hc : isBlank c = true
      · rw [List.cons_append, trimLeft_blank hc, trimLeft_blank hc, ih]
      · rw [Bool.not_eq_true] at hc
        rw [List.cons_append, trimLeft_cons hc, trimLeft_cons hc, List.cons_append]

theorem trim_append_slash (h : KeepsEnd ('/' :: tail)) (cs : List Char) :
    trim (cs ++ '/' :: tail) = trimLeft cs ++ '/' :: tail := by
  have htrimmed : Trimmed ('/' :: tail) := by
    refine ⟨fun c hc => ?_, fun c hc => (h c hc).1⟩
    obtain rfl : '/' = c := Option.some.inj hc
    decide
  rw [trim, trimLeft_append_slash, htrimmed.trimRight_append (List.cons_ne_nil _ _)]

theorem withoutAngles_append_slash (h : KeepsEnd ('/' :: tail)) (cs : List Char) :
    withoutAngles (cs ++ '/' :: tail) = cs ++ '/' :: tail := by
  cases cs with
  | nil => rfl
  | cons c cs =>
      by_cases hc : c = '<'
      · have hother : ¬ ((cs ++ '/' :: tail).getLast? == some '>') = true := by
          rw [List.getLast?_append, List.getLast?_cons, Option.some_or, ← List.getLast?_cons,
            beq_iff_eq]
          exact fun heq => (h '>' heq).2 rfl
        subst hc
        rw [List.cons_append, withoutAngles, if_neg hother]
      · rw [List.cons_append, withoutAngles]
        exact fun rest hrest => hc (List.cons.inj hrest).1

theorem literal?_append_slash (cs tail : List Char) :
    literal? "URL:" (cs ++ '/' :: tail) = (literal? "URL:" cs).map (· ++ '/' :: tail) := by
  cases hread : literal? "URL:" cs with
  | some rest =>
      rw [literal?_eq_some_iff] at hread
      rw [Option.map_some, literal?_eq_some_iff, ← hread, List.append_assoc]
  | none =>
      have hno (rest : List Char) : "URL:".toList ++ rest ≠ cs := by
        intro heq
        rw [literal?_eq_some_iff.2 heq] at hread
        exact absurd hread (by simp)
      refine Option.eq_none_iff_forall_ne_some.2 fun rest hrest => ?_
      rw [literal?_eq_some_iff, List.append_eq_append_iff] at hrest
      rcases hrest with ⟨more, hcs, -⟩ | ⟨inner, hinner, hslash⟩
      · exact absurd hcs.symm (hno more)
      · cases inner with
        | nil =>
            rw [List.append_nil] at hinner
            exact absurd ((List.append_nil _).trans hinner) (hno [])
        | cons c inner =>
            -- The slash would stand within the mark.
            obtain ⟨rfl, -⟩ := List.cons.inj hslash
            have hmem : '/' ∈ "URL:".toList := by
              rw [hinner]
              exact List.mem_append_right cs List.mem_cons_self
            exact absurd hmem (by decide)

theorem bareUrl_append (h : KeepsEnd ('/' :: tail)) (cs : List Char) :
    bareUrl (String.ofList (cs ++ '/' :: tail)) = String.ofList (bareFront cs ++ '/' :: tail) := by
  rw [bareUrl, String.toList_ofList, trim_append_slash h, withoutAngles_append_slash h,
    literal?_append_slash, bareFront]
  cases literal? "URL:" (trimLeft cs) with
  | none => rfl
  | some rest =>
      rw [Option.map_some]
      dsimp only
      rw [trim_append_slash h]

theorem mem_of_mem_bareFront {c : Char} (h : c ∈ bareFront cs) : c ∈ cs := by
  have htrim : ∀ ds : List Char, c ∈ trimLeft ds → c ∈ ds := fun ds hc =>
    (List.dropWhile_sublist isBlank).subset hc
  rw [bareFront] at h
  split at h
  · next rest hread =>
      rw [literal?_eq_some_iff] at hread
      refine htrim cs ?_
      rw [← hread]
      exact List.mem_append_right _ (htrim rest h)
  · exact htrim cs h

theorem get_congr {network network' : Network} {url : String} {headers : List (String × String)}
    {timeout : Binary64}
    (h : ∀ r, request? url headers timeout = some r → network r = network' r) :
    get network url headers timeout = get network' url headers timeout := by
  delta get
  cases hrequest : request? url headers timeout with
  | none => rfl
  | some r =>
      dsimp only
      rw [h r hrequest]

end

end SchemaDiagram.Http
