import Mathlib.Data.Finset.Insert
import Mathlib.Order.Bounds.Basic
import SchemaDiagram.Proofs.Names.Candidates
import SchemaDiagram.Proofs.Text.Lowering

/-!
The search for a free name with nothing that bounds it. Candidates differ and only so many names are
taken, so it ends all the same, and it ends at the name itself or at the least of its suffixes.
-/

namespace SchemaDiagram

open SchemaDiagram.Text

def LastComponent (path base : String) : Prop :=
  '/' ∉ base.toList ∧ (path = base ∨ ∃ directory, path = directory ++ "/" ++ base)

theorem lastComponent_iff {path base : String} :
    LastComponent path base ↔ base = String.ofList (baseName path.toList) := by
  constructor
  · rintro ⟨hbase, rfl | ⟨directory, rfl⟩⟩
    · rw [baseName_eq_self hbase, String.ofList_toList]
    · have hsplit : (directory ++ "/" ++ base).toList = directory.toList ++ '/' :: base.toList := by
        simp
      rw [hsplit, baseName_append hbase, String.ofList_toList]
  · rintro rfl
    obtain ⟨hbase, hsplit⟩ := baseName_cases path.toList
    refine ⟨by rwa [String.toList_ofList], ?_⟩
    rcases hsplit with hall | ⟨front, hfront⟩
    · exact .inl (by rw [← hall, String.ofList_toList])
    · refine .inr ⟨String.ofList front, String.toList_inj.1 ?_⟩
      simpa using hfront

namespace NameRegistry

variable {r : NameRegistry} {name base : String}

def names (r : NameRegistry) : Finset String :=
  r.taken.toFinset

theorem mem_names : name ∈ r.names ↔ r.contains name = true := by
  rw [names, List.mem_toFinset, contains, List.contains_iff_mem]

theorem notMem_names : name ∉ r.names ↔ r.contains name = false := by
  rw [mem_names, Bool.not_eq_true]

theorem names_claim (r : NameRegistry) (name path : String) :
    (r.claim name path).2.names = insert (r.claim name path).1 r.names := by
  rw [names, taken_claim, List.toFinset_cons, names]

inductive Search (r : NameRegistry) (name base : String) : Nat → Nat → Prop
  | free {k : Nat} (h : candidate name base k ∉ r.names) : Search r name base k k
  | taken {k n : Nat} (h : candidate name base k ∈ r.names)
      (later : Search r name base (k + 1) n) : Search r name base k n

theorem Search.isLeast {k n : Nat} (h : Search r name base k n) :
    IsLeast {i | k ≤ i ∧ candidate name base i ∉ r.names} n := by
  induction h with
  | free hfree => exact ⟨⟨Nat.le_refl _, hfree⟩, fun i hi => hi.1⟩
  | @taken k n htaken later ih =>
      obtain ⟨⟨hle, hfree⟩, hleast⟩ := ih
      refine ⟨⟨Nat.le_of_succ_le hle, hfree⟩, fun i hi => ?_⟩
      rcases Nat.eq_or_lt_of_le hi.1 with rfl | hlt
      · exact absurd htaken hi.2
      · exact hleast ⟨hlt, hi.2⟩

theorem Search.unique {k m n : Nat} (hm : Search r name base k m)
    (hn : Search r name base k n) : m = n :=
  hm.isLeast.unique hn.isLeast

theorem search_of_taken {k n : Nat} (hk : k ≤ n) (hfree : candidate name base n ∉ r.names)
    (hbefore : ∀ i, k ≤ i → i < n → candidate name base i ∈ r.names) :
    Search r name base k n := by
  -- The last round is the one at `n`; each round before it is put in front.
  induction hk using Nat.decreasingInduction with
  | self => exact .free hfree
  | of_succ k hlt ih =>
      exact .taken (hbefore k (Nat.le_refl k) hlt) (ih fun i hi => hbefore i (Nat.le_of_succ_le hi))

theorem exists_search (r : NameRegistry) (name path : String) :
    ∃ n ≤ r.size, Search r name (String.ofList (baseName path.toList)) 0 n ∧
      (r.claim name path).1 = candidate name (String.ofList (baseName path.toList)) n := by
  obtain ⟨n, hclaim, hfree, hbefore⟩ := exists_claim_eq r name path
  obtain ⟨k, hk, hkfree⟩ := exists_free_candidate r name (String.ofList (baseName path.toList))
  have hsearch : Search r name (String.ofList (baseName path.toList)) 0 n :=
    search_of_taken (Nat.zero_le n) (notMem_names.2 hfree) fun i _ hi => mem_names.2 (hbefore i hi)
  have hle : n ≤ k := hsearch.isLeast.2 ⟨Nat.zero_le k, notMem_names.2 hkfree⟩
  exact ⟨n, Nat.le_trans hle hk, hsearch, hclaim⟩

/-- The name if it is free; else the name with the file if that is free; else this with the least
number from two on that makes it free. -/
inductive LeastFree (r : NameRegistry) (name base : String) : String → Prop
  | own (free : name ∉ r.names) : LeastFree r name base name
  | inFile (taken : name ∈ r.names) (free : name ++ "_" ++ base ∉ r.names) :
      LeastFree r name base (name ++ "_" ++ base)
  | numbered (taken : name ∈ r.names) (inFileTaken : name ++ "_" ++ base ∈ r.names) {k : Nat}
      (least : IsLeast {i | 2 ≤ i ∧ name ++ "_" ++ base ++ "_" ++ i.repr ∉ r.names} k) :
      LeastFree r name base (name ++ "_" ++ base ++ "_" ++ k.repr)

theorem candidate_of_two_le {k : Nat} (hk : 2 ≤ k) (name base : String) :
    candidate name base k = name ++ "_" ++ base ++ "_" ++ k.repr := by
  obtain ⟨k, rfl⟩ := Nat.exists_eq_add_of_le' hk
  rfl

theorem Search.isLeast_numbered {n : Nat} (h : Search r name base 2 n) :
    IsLeast {i | 2 ≤ i ∧ name ++ "_" ++ base ++ "_" ++ i.repr ∉ r.names} n := by
  have hset : {i | 2 ≤ i ∧ name ++ "_" ++ base ++ "_" ++ i.repr ∉ r.names} =
      {i | 2 ≤ i ∧ candidate name base i ∉ r.names} := by
    ext i
    refine and_congr_right fun hi => ?_
    rw [candidate_of_two_le hi]
  rw [hset]
  exact h.isLeast

theorem Search.leastFree {n : Nat} (h : Search r name base 0 n) :
    LeastFree r name base (candidate name base n) := by
  cases h with
  | free hfree => exact .own hfree
  | taken htaken later =>
      cases later with
      | free hfree => exact .inFile htaken hfree
      | taken hfileTaken later =>
          have hleast := later.isLeast_numbered
          rw [candidate_of_two_le hleast.1.1]
          exact .numbered htaken hfileTaken hleast

theorem claim_leastFree (r : NameRegistry) (name path : String) :
    ∃ base, LastComponent path base ∧
      (∃ n ≤ r.size, (∀ m, Search r name base 0 m ↔ m = n) ∧
        (r.claim name path).1 = candidate name base n) ∧
      LeastFree r name base (r.claim name path).1 ∧
      (r.claim name path).1 ∉ r.names ∧
      (r.claim name path).2.names = insert (r.claim name path).1 r.names := by
  obtain ⟨n, hn, hsearch, hclaim⟩ := exists_search r name path
  have hends (m : Nat) : Search r name (String.ofList (baseName path.toList)) 0 m ↔ m = n := by
    constructor
    · intro h
      exact h.unique hsearch
    · rintro rfl
      exact hsearch
  refine ⟨_, lastComponent_iff.2 rfl, ⟨n, hn, hends, hclaim⟩, ?_, ?_, names_claim r name path⟩
  · rw [hclaim]
    exact hsearch.leastFree
  · exact notMem_names.2 (contains_claimed r name path)

example : ((⟨["User_user.js_3", "User_user.js_2", "User", "User_user.js"]⟩ : NameRegistry).claim
    "User" "b/user.js").1 = "User_user.js_4" := by
  rfl

end NameRegistry

end SchemaDiagram
