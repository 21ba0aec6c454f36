import Mathlib.Data.List.Induction
import SchemaDiagram.Proofs.Source.Calls
import SchemaDiagram.Proofs.Text.Places

/-!
Which of several declarations of one variable counts. Among the registrations and among the
assignments it is the one that starts last. But an assignment counts before any registration, also
before one that starts behind it.
-/

namespace SchemaDiagram.Declaration

open SchemaDiagram.Text

abbrev Placed := Nat × List Char × List Char

def registrations (cs : List Char) : List Placed :=
  findAll registration? cs

def assignments (cs : List Char) : List Placed :=
  findAll assignment? cs

def declarations (cs : List Char) : List Placed :=
  registrations cs ++ assignments cs

def InOrder (found : List Placed) : Prop :=
  found.Pairwise fun d e => d.1 < e.1

/-- Of the declarations of a variable the one that starts last. -/
def StartsLast (found : List Placed) (name : List Char) (d : Placed) : Prop :=
  d ∈ found ∧ d.2.1 = name ∧ ∀ e ∈ found, e.2.1 = name → e.1 ≤ d.1

theorem inOrder_registrations (cs : List Char) : InOrder (registrations cs) :=
  pairwise_scan registration? 0 0 none cs

theorem inOrder_assignments (cs : List Char) : InOrder (assignments cs) :=
  pairwise_scan assignment? 0 0 none cs

section

variable {found : List Placed} {name : List Char} {d e : Placed}

theorem InOrder.lt_last (h : InOrder (found ++ [d])) (he : e ∈ found) : e.1 < d.1 :=
  (List.pairwise_append.1 h).2.2 e he d (by simp)

theorem startsLast_concat_self (h : InOrder (found ++ [d])) (hname : d.2.1 = name) :
    StartsLast (found ++ [d]) name e ↔ e = d := by
  have hlast : ∀ e ∈ found ++ [d], e.1 < d.1 ∨ e = d := by
    intro e he
    rcases List.mem_append.1 he with he | he
    · exact .inl (h.lt_last he)
    · exact .inr (List.mem_singleton.1 he)
  constructor
  · rintro ⟨hmem, -, hlater⟩
    have hle := hlater d (by simp) hname
    refine (hlast e hmem).resolve_left fun hlt => ?_
    omega
  · rintro rfl
    refine ⟨by simp, hname, fun d hd _ => ?_⟩
    rcases hlast d hd with hlt | rfl
    · exact Nat.le_of_lt hlt
    · exact Nat.le_refl _

theorem startsLast_concat_of_ne (hname : d.2.1 ≠ name) :
    StartsLast (found ++ [d]) name e ↔ StartsLast found name e := by
  constructor
  · rintro ⟨hmem, he, hlater⟩
    refine ⟨?_, he, fun f hf => hlater f (List.mem_append_left _ hf)⟩
    rcases List.mem_append.1 hmem with hmem | hmem
    · exact hmem
    · obtain rfl := List.mem_singleton.1 hmem
      exact absurd he hname
  · rintro ⟨hmem, he, hlater⟩
    refine ⟨List.mem_append_left _ hmem, he, fun f hf hfname => ?_⟩
    rcases List.mem_append.1 hf with hf | hf
    · exact hlater f hf hfname
    · obtain rfl := List.mem_singleton.1 hf
      exact absurd hfname hname

theorem lookup_recorded (h : InOrder found) (index : Index) (model : String) :
    ((found.map Prod.snd).foldl record index).lookup (String.ofList name) = some model ↔
      (∃ d, StartsLast found name d ∧ String.ofList d.2.2 = model) ∨
        (∀ d ∈ found, d.2.1 ≠ name) ∧ index.lookup (String.ofList name) = some model := by
  -- from the end: the last record of a variable is the one that stays
  induction found using List.reverseRecOn with
  | nil => simp [StartsLast]
  | append_singleton found last ih =>
      have hfound : InOrder found := (List.pairwise_append.1 h).1
      rw [List.map_append, List.foldl_append, List.map_singleton, List.foldl_cons, List.foldl_nil,
        record]
      by_cases hname : last.2.1 = name
      · have hnone : ¬ ∀ d ∈ found ++ [last], d.2.1 ≠ name := fun hall => hall last (by simp) hname
        simp only [startsLast_concat_self h hname, exists_eq_left, hname, hnone, false_and, or_false]
        rw [Json.lookup_put_self, Option.some_inj]
      · have hne : String.ofList name ≠ String.ofList last.2.1 :=
          fun heq => hname (String.ofList_injective heq).symm
        have hall : (∀ d ∈ found ++ [last], d.2.1 ≠ name) ↔ ∀ d ∈ found, d.2.1 ≠ name := by
          simp [or_imp, forall_and, hname]
        rw [Json.lookup_put_of_ne _ _ hne, ih hfound, hall]
        simp only [startsLast_concat_of_ne hname]

theorem exists_startsLast (h : InOrder found) (hsome : ∃ d ∈ found, d.2.1 = name) :
    ∃ d, StartsLast found name d := by
  induction found using List.reverseRecOn with
  | nil => simp at hsome
  | append_singleton found last ih =>
      by_cases hname : last.2.1 = name
      · exact ⟨last, (startsLast_concat_self h hname).2 rfl⟩
      · obtain ⟨d, hd, hdname⟩ := hsome
        have hmem : d ∈ found := by
          rcases List.mem_append.1 hd with hd | hd
          · exact hd
          · obtain rfl := List.mem_singleton.1 hd
            exact absurd hdname hname
        obtain ⟨e, he⟩ := ih (List.pairwise_append.1 h).1 ⟨d, hmem, hdname⟩
        exact ⟨e, (startsLast_concat_of_ne hname).2 he⟩

theorem startsLast_append {others : List Placed} :
    StartsLast (found ++ others) name d ↔
      (StartsLast found name d ∧ ∀ e ∈ others, e.2.1 = name → e.1 ≤ d.1) ∨
        StartsLast others name d ∧ ∀ e ∈ found, e.2.1 = name → e.1 ≤ d.1 := by
  constructor
  · rintro ⟨hmem, hname, hlater⟩
    have hfound : ∀ e ∈ found, e.2.1 = name → e.1 ≤ d.1 :=
      fun e he => hlater e (List.mem_append_left _ he)
    have hothers : ∀ e ∈ others, e.2.1 = name → e.1 ≤ d.1 :=
      fun e he => hlater e (List.mem_append_right _ he)
    rcases List.mem_append.1 hmem with hmem | hmem
    · exact .inl ⟨⟨hmem, hname, hfound⟩, hothers⟩
    · exact .inr ⟨⟨hmem, hname, hothers⟩, hfound⟩
  · rintro (⟨⟨hmem, hname, hfound⟩, hothers⟩ | ⟨⟨hmem, hname, hothers⟩, hfound⟩)
    · exact ⟨List.mem_append_left _ hmem, hname, List.forall_mem_append.2 ⟨hfound, hothers⟩⟩
    · exact ⟨List.mem_append_right _ hmem, hname, List.forall_mem_append.2 ⟨hfound, hothers⟩⟩

end

theorem literal?_model_of_registration? {before : Option Char} {cs : List Char}
    {found : (List Char × List Char) × List Char} (h : registration? before cs = some found) :
    ∃ rest, cs = 'm' :: rest := by
  unfold registration? at h
  split at h
  · exact absurd h (by simp)
  · simp only [modelCall?, Option.bind_eq_bind, Option.bind_eq_some_iff] at h
    obtain ⟨-, ⟨left, hmodel, -⟩, -⟩ := h
    rw [literal?_eq_some_iff] at hmodel
    cases hqualifier : literal? "mongoose." cs with
    | none =>
        rw [dropLiteral_of_none hqualifier] at hmodel
        exact ⟨_, hmodel.symm⟩
    | some rest => exact ⟨_, (literal?_eq_some_iff.1 hqualifier).symm⟩

theorem places_differ {cs : List Char} {r a : Placed} (hr : r ∈ registrations cs)
    (ha : a ∈ assignments cs) : r.1 ≠ a.1 := by
  intro hplace
  obtain ⟨p, s, rest, hsplit, hp, hread⟩ := exists_read_of_mem_findAll hr
  obtain ⟨p', s', rest', hsplit', hp', hread'⟩ := exists_read_of_mem_findAll ha
  obtain ⟨rfl, rfl⟩ := List.append_inj (hsplit.symm.trans hsplit') (by omega)
  obtain ⟨left, rfl⟩ := literal?_model_of_registration? hread
  obtain ⟨-, word, hmem, behindKeyword, -, -, -, hkeyword, -⟩ := assignment?_eq_some hread'
  rw [literal?_eq_some_iff] at hkeyword
  have hhead : ∀ word ∈ ["const", "let", "var", "export"], word.toList.head? ≠ some 'm' ∧
      word.toList ≠ [] := by decide
  obtain ⟨hm, hne⟩ := hhead word hmem
  cases hchars : word.toList with
  | nil => exact hne hchars
  | cons c chars =>
      rw [hchars] at hkeyword hm
      exact hm (congrArg some (List.cons.inj hkeyword).1)

section

variable (cs name : List Char)

theorem lookup_index_eq_some_iff (model : String) :
    (index cs).lookup (String.ofList name) = some model ↔
      (∃ a, StartsLast (assignments cs) name a ∧ String.ofList a.2.2 = model) ∨
        (∀ a ∈ assignments cs, a.2.1 ≠ name) ∧
          ∃ r, StartsLast (registrations cs) name r ∧ String.ofList r.2.2 = model := by
  have hindex : index cs = ((assignments cs).map Prod.snd).foldl record
      (((registrations cs).map Prod.snd).foldl record []) := rfl
  have hempty : ([] : Index).lookup (String.ofList name) ≠ some model := by simp
  simp only [hindex, lookup_recorded (inOrder_assignments cs),
    lookup_recorded (inOrder_registrations cs), hempty, and_false, or_false]

theorem lookup_index_eq_none_iff :
    (index cs).lookup (String.ofList name) = none ↔ ∀ d ∈ declarations cs, d.2.1 ≠ name := by
  rw [Option.eq_none_iff_forall_ne_some]
  constructor
  · intro hnone d hd hname
    have hunassigned : ∀ a ∈ assignments cs, a.2.1 ≠ name := by
      intro a ha haname
      obtain ⟨last, hlast⟩ := exists_startsLast (inOrder_assignments cs) ⟨a, ha, haname⟩
      exact hnone _ ((lookup_index_eq_some_iff cs name _).2 (.inl ⟨last, hlast, rfl⟩))
    rcases List.mem_append.1 hd with hd | hd
    · obtain ⟨last, hlast⟩ := exists_startsLast (inOrder_registrations cs) ⟨d, hd, hname⟩
      exact hnone _ ((lookup_index_eq_some_iff cs name _).2 (.inr ⟨hunassigned, last, hlast, rfl⟩))
    · exact hunassigned d hd hname
  · intro hall model hsome
    rcases (lookup_index_eq_some_iff cs name model).1 hsome with ⟨a, ha, -⟩ | ⟨-, r, hr, -⟩
    · exact hall a (List.mem_append_right _ ha.1) ha.2.1
    · exact hall r (List.mem_append_left _ hr.1) hr.2.1

theorem last_counts_iff :
    (∀ model, (index cs).lookup (String.ofList name) = some model ↔
        ∃ d, StartsLast (declarations cs) name d ∧ String.ofList d.2.2 = model) ↔
      ∀ r a, StartsLast (registrations cs) name r → StartsLast (assignments cs) name a →
        a.1 < r.1 → r.2.2 = a.2.2 := by
  constructor
  · intro h r a hr ha hlt
    have hlast : StartsLast (declarations cs) name r := by
      refine startsLast_append.2 (.inl ⟨hr, fun e he hname => ?_⟩)
      exact Nat.le_trans (ha.2.2 e he hname) (Nat.le_of_lt hlt)
    have hassigned := (lookup_index_eq_some_iff cs name _).2 (.inl ⟨a, ha, rfl⟩)
    have hregistered := (h _).2 ⟨r, hlast, rfl⟩
    exact String.ofList_injective (Option.some.inj (hregistered.symm.trans hassigned))
  · intro h model
    rw [lookup_index_eq_some_iff]
    constructor
    · rintro (⟨a, ha, hmodel⟩ | ⟨hnone, r, hr, hmodel⟩)
      · by_cases hbehind : ∃ r, StartsLast (registrations cs) name r ∧ a.1 < r.1
        · obtain ⟨r, hr, hlt⟩ := hbehind
          refine ⟨r, startsLast_append.2 (.inl ⟨hr, fun e he hname => ?_⟩), ?_⟩
          · exact Nat.le_trans (ha.2.2 e he hname) (Nat.le_of_lt hlt)
          · rw [h r a hr ha hlt]
            exact hmodel
        · refine ⟨a, startsLast_append.2 (.inr ⟨ha, fun e he hname => ?_⟩), hmodel⟩
          obtain ⟨r, hr⟩ := exists_startsLast (inOrder_registrations cs) ⟨e, he, hname⟩
          have hle : r.1 ≤ a.1 := Nat.le_of_not_lt fun hlt => hbehind ⟨r, hr, hlt⟩
          exact Nat.le_trans (hr.2.2 e he hname) hle
      · exact ⟨r, startsLast_append.2 (.inl ⟨hr, fun e he hname => absurd hname (hnone e he)⟩),
          hmodel⟩
    · rintro ⟨d, hd, hmodel⟩
      rcases startsLast_append.1 hd with ⟨hr, hlater⟩ | ⟨ha, -⟩
      · by_cases hassigned : ∃ a ∈ assignments cs, a.2.1 = name
        · obtain ⟨a, ha⟩ := exists_startsLast (inOrder_assignments cs) hassigned
          have hlt : a.1 < d.1 :=
            Nat.lt_of_le_of_ne (hlater a ha.1 ha.2.1) (places_differ hr.1 ha.1).symm
          exact .inl ⟨a, ha, by rw [← h d a hr ha hlt]; exact hmodel⟩
        · exact .inr ⟨fun a ha hname => hassigned ⟨a, ha, hname⟩, d, hr, hmodel⟩
      · exact .inl ⟨d, ha, hmodel⟩

theorem recorded_iff :
    ((index cs).lookup (String.ofList name) = none ↔ ∀ d ∈ declarations cs, d.2.1 ≠ name) ∧
    (∀ model, (index cs).lookup (String.ofList name) = some model ↔
      (∃ a, StartsLast (assignments cs) name a ∧ String.ofList a.2.2 = model) ∨
        (∀ a ∈ assignments cs, a.2.1 ≠ name) ∧
          ∃ r, StartsLast (registrations cs) name r ∧ String.ofList r.2.2 = model) ∧
    ((∀ model, (index cs).lookup (String.ofList name) = some model ↔
        ∃ d, StartsLast (declarations cs) name d ∧ String.ofList d.2.2 = model) ↔
      ∀ r a, StartsLast (registrations cs) name r → StartsLast (assignments cs) name a →
        a.1 < r.1 → r.2.2 = a.2.2) :=
  ⟨lookup_index_eq_none_iff cs name, lookup_index_eq_some_iff cs name, last_counts_iff cs name⟩

end

def renamedItem : List Char :=
  "const Item = model('Old', itemSchema);\nmongoose.model('New', Item);".toList

theorem renamedItem_old :
    (index renamedItem).lookup "Item" = some "Old" ∧
      StartsLast (declarations renamedItem) "Item".toList (39, "Item".toList, "New".toList) ∧
      "New" ≠ "Old" := by
  refine ⟨by decide +kernel, ⟨by decide +kernel, rfl, by decide +kernel⟩, by decide⟩

end SchemaDiagram.Declaration
