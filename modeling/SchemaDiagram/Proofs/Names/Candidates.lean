import Mathlib.Data.List.Perm.Subperm
import Mathlib.Data.List.Nodup
import Mathlib.Data.Nat.Find
import SchemaDiagram.Schema.NameRegistry

/-!
The search for a free name always ends at one, and at the first one.
-/

namespace SchemaDiagram

open SchemaDiagram.Text

theorem natText_injective : Function.Injective natText := by
  intro m n h
  have hm : Nat.ofDigitChars 10 (natText m) 0 = m := Nat.ofDigitChars_ten_toDigits
  have hn : Nat.ofDigitChars 10 (natText n) 0 = n := Nat.ofDigitChars_ten_toDigits
  rw [h, hn] at hm
  exact hm.symm

namespace NameRegistry

def ending (base : String) : Nat → List Char
  | 0 => []
  | 1 => '_' :: base.toList
  | k => '_' :: (base.toList ++ '_' :: natText k)

theorem toList_candidate (name base : String) (k : Nat) :
    (candidate name base k).toList = name.toList ++ ending base k := by
  match k with
  | 0 => simp [candidate, ending]
  | 1 => simp [candidate, ending]
  | k + 2 => simp [candidate, ending]

theorem ending_injective (base : String) : Function.Injective (ending base) := by
  intro i j h
  match i, j with
  | 0, 0 => rfl
  | 0, 1 => simp [ending] at h
  | 0, j + 2 => simp [ending] at h
  | 1, 0 => simp [ending] at h
  | 1, 1 => rfl
  | 1, j + 2 => simp [ending] at h
  | i + 2, 0 => simp [ending] at h
  | i + 2, 1 => simp [ending] at h
  | i + 2, j + 2 =>
      have hnumber : natText (i + 2) = natText (j + 2) := by simpa [ending] using h
      exact natText_injective hnumber

theorem candidate_injective (name base : String) : Function.Injective (candidate name base) := by
  intro i j h
  have hchars := congrArg String.toList h
  rw [toList_candidate, toList_candidate] at hchars
  exact ending_injective base (List.append_cancel_left hchars)

theorem exists_free_candidate (r : NameRegistry) (name base : String) :
    ∃ k ≤ r.size, r.contains (candidate name base k) = false := by
  refine Classical.byContradiction fun hnone => ?_
  have hall (k : Nat) (hk : k ≤ r.size) : r.contains (candidate name base k) = true := by
    cases htaken : r.contains (candidate name base k) with
    | false => exact absurd ⟨k, hk, htaken⟩ hnone
    | true => rfl
  -- Different candidates, one more than there are names, would all be among the names.
  have hnodup : ((List.range (r.size + 1)).map (candidate name base)).Nodup :=
    List.nodup_range.map (candidate_injective name base)
  have hsubset : (List.range (r.size + 1)).map (candidate name base) ⊆ r.taken := by
    intro chosen hchosen
    obtain ⟨k, hk, rfl⟩ := List.mem_map.1 hchosen
    have htaken := hall k (Nat.lt_succ_iff.1 (List.mem_range.1 hk))
    simpa [contains] using htaken
  have hlength := (List.subperm_of_subset hnodup hsubset).length_le
  rw [List.length_map, List.length_range] at hlength
  exact absurd hlength (Nat.not_succ_le_self r.size)

theorem firstFree_eq {r : NameRegistry} {name base : String} {n : Nat}
    (hfree : r.contains (candidate name base n) = false) {fuel k : Nat} (hk : k ≤ n)
    (hfuel : n ≤ k + fuel)
    (hbefore : ∀ i, k ≤ i → i < n → r.contains (candidate name base i) = true) :
    r.firstFree name base fuel k = candidate name base n := by
  induction fuel generalizing k with
  | zero =>
      obtain rfl : k = n := by omega
      rfl
  | succ fuel ih =>
      rcases Nat.eq_or_lt_of_le hk with rfl | hlt
      · simp [firstFree, hfree]
      · have htaken := hbefore k (Nat.le_refl k) hlt
        rw [firstFree, if_pos htaken]
        exact ih hlt (by omega) fun i hi hin => hbefore i (by omega) hin

theorem exists_claim_eq (r : NameRegistry) (name path : String) :
    ∃ n, (r.claim name path).1 = candidate name (String.ofList (baseName path.toList)) n ∧
      r.contains (candidate name (String.ofList (baseName path.toList)) n) = false ∧
      ∀ i < n, r.contains (candidate name (String.ofList (baseName path.toList)) i) = true := by
  have hexists := exists_free_candidate r name (String.ofList (baseName path.toList))
  have hfree : ∃ n, r.contains (candidate name (String.ofList (baseName path.toList)) n) = false :=
    hexists.imp fun _ h => h.2
  obtain ⟨k, hk, hkfree⟩ := hexists
  have hle : Nat.find hfree ≤ r.size := Nat.le_trans (Nat.find_min' hfree hkfree) hk
  have hbefore (i : Nat) (hi : i < Nat.find hfree) :
      r.contains (candidate name (String.ofList (baseName path.toList)) i) = true := by
    simpa using Nat.find_min hfree hi
  exact ⟨Nat.find hfree, firstFree_eq (Nat.find_spec hfree) (Nat.zero_le _) (by omega)
    fun i _ => hbefore i, Nat.find_spec hfree, hbefore⟩

theorem contains_claimed (r : NameRegistry) (name path : String) :
    r.contains (r.claim name path).1 = false := by
  obtain ⟨n, hclaim, hfree, -⟩ := exists_claim_eq r name path
  rw [hclaim, hfree]

theorem claim_eq_self_iff (r : NameRegistry) (name path : String) :
    (r.claim name path).1 = name ↔ r.contains name = false := by
  constructor
  · intro h
    rw [← h]
    exact contains_claimed r name path
  · exact claim_of_free path

end NameRegistry

end SchemaDiagram
