import Mathlib.Data.List.Nodup
import Mathlib.Data.List.Perm.Subperm
import Mathlib.Data.Nat.Find

/-!
# The first free name

A search through numbered names for one that is not in use: `search` tries the names from a number on and gives the
number of the first free one. It finds just that one (`search_eq_some_iff`). Where different numbers have different
names, one of any `used.length + 1` names in a row is free, so the search ends within as many tries, with any fuel
beyond them (`exists_search`).
-/

namespace FirstFree

variable {κ : Type} [DecidableEq κ] (used : List κ) (name : Nat → κ)

/-- The first number from `start` on whose name is not in use; `none` after as many tries as there is fuel. -/
def search : Nat → Nat → Option Nat
  | 0, _ => none
  | fuel + 1, start => if name start ∈ used then search fuel (start + 1) else some start

variable {used name}

/-- **The search finds the first free name** within its fuel. -/
theorem search_eq_some_iff {fuel start k : Nat} :
    search used name fuel start = some k ↔
      start ≤ k ∧ k < start + fuel ∧ name k ∉ used ∧ ∀ j, start ≤ j → j < k → name j ∈ used := by
  induction fuel generalizing start with
  | zero =>
    constructor
    · intro h
      cases h
    rintro ⟨hfirst, hlast, -⟩
    omega
  | succ fuel ih =>
    rw [search]
    split_ifs with htaken
    · rw [ih]
      constructor
      · rintro ⟨hfirst, hlast, hfree, hbefore⟩
        refine ⟨by omega, by omega, hfree, fun j hj hlt => ?_⟩
        rcases Nat.eq_or_lt_of_le hj with rfl | hlater
        · exact htaken
        · exact hbefore j hlater hlt
      · rintro ⟨hfirst, hlast, hfree, hbefore⟩
        have hne : start ≠ k := by
          rintro rfl
          exact hfree htaken
        exact ⟨by omega, by omega, hfree, fun j hj hlt => hbefore j (by omega) hlt⟩
    · constructor
      · intro h
        cases h
        exact ⟨le_refl _, by omega, htaken, fun j hj hlt => by omega⟩
      · rintro ⟨hfirst, -, -, hbefore⟩
        rcases Nat.eq_or_lt_of_le hfirst with rfl | hlater
        · rfl
        · exact absurd (hbefore start (le_refl _) hlater) htaken

variable {first : Nat}

/-- One of `used.length + 1` different names in a row is not in use. -/
theorem exists_free (hname : ∀ i j, first ≤ i → first ≤ j → name i = name j → i = j) :
    ∃ k, first ≤ k ∧ k ≤ first + used.length ∧ name k ∉ used := by
  by_contra hnone
  have hall : (List.range' first (used.length + 1)).map name ⊆ used := by
    intro taken htaken
    obtain ⟨k, hk, rfl⟩ := List.mem_map.mp htaken
    rw [List.mem_range'_1] at hk
    by_contra hfree
    exact hnone ⟨k, hk.1, by omega, hfree⟩
  have hnodup : ((List.range' first (used.length + 1)).map name).Nodup := by
    refine List.Nodup.map_on (fun i hi j hj heq => ?_) List.nodup_range'
    exact hname i j (List.mem_range'_1.mp hi).1 (List.mem_range'_1.mp hj).1 heq
  have hlength := (List.subperm_of_subset hnodup hall).length_le
  rw [List.length_map, List.length_range'] at hlength
  omega

/-- **The search ends.** Where the names from `first` on differ, it finds the same one with any fuel that reaches
past `used.length` names from there. -/
theorem exists_search (used : List κ) (hname : ∀ i j, first ≤ i → first ≤ j → name i = name j → i = j) {start : Nat}
    (hstart : start ≤ first) :
    ∃ k, k ≤ first + used.length ∧ name k ∉ used
      ∧ ∀ fuel, first + used.length < start + fuel → search used name fuel start = some k := by
  have hfree : ∃ k, start ≤ k ∧ k ≤ first + used.length ∧ name k ∉ used := by
    obtain ⟨k, hfirst, hlast, hunused⟩ := exists_free hname
    exact ⟨k, le_trans hstart hfirst, hlast, hunused⟩
  have hspec := Nat.find_spec hfree
  refine ⟨Nat.find hfree, hspec.2.1, hspec.2.2, fun fuel hfuel => ?_⟩
  refine search_eq_some_iff.mpr ⟨hspec.1, by omega, hspec.2.2, fun j hj hlt => ?_⟩
  by_contra hunused
  exact Nat.find_min hfree hlt ⟨hj, by omega, hunused⟩

end FirstFree
