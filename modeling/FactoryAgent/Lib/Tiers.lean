import Mathlib.Data.Finset.Sort
import Mathlib.Data.Multiset.Basic

/-!
# Tiers

Elements with a key are tried in the order of their keys, those with one key together. So what matters of the keys are
the tiers: the elements of the least key, those of the next one, and so on. Another numbering leaves the tiers as they
are where it keeps the order and the ties; where it gives each element a key of its own, each tier has one element.
-/

namespace Tiers

variable {α β κ : Type} [LinearOrder κ] {key : α → κ} {image : α → β} {l : List α}

/-- **The tiers of elements**, from the least key on: what is tried together, of which an image is kept. -/
def tiers (key : α → κ) (image : α → β) (l : List α) : List (Multiset β) :=
  ((l.map key).toFinset.sort (· ≤ ·)).map fun k => ((l.filter fun a => key a = k).map image : List β)

/-- The order of the elements does not matter. -/
theorem tiers_perm {l' : List α} (h : l.Perm l') : tiers key image l = tiers key image l' := by
  rw [tiers, tiers, List.toFinset_eq_of_perm _ _ (h.map key)]
  exact List.map_congr_left fun k _ => Multiset.coe_eq_coe.mpr ((h.filter _).map image)

/-- Of elements with keys of their own, one has a key. -/
theorem filter_key_eq_singleton (h : (l.map key).Nodup) {a : α} (ha : a ∈ l) :
    (l.filter fun b => key b = key a) = [a] := by
  induction l with
  | nil => exact absurd ha List.not_mem_nil
  | cons b l ih =>
    obtain ⟨hb, hrest⟩ := List.nodup_cons.mp (List.map_cons ▸ h)
    have hne : ∀ c ∈ l, key c ≠ key b := fun c hc heq => hb (heq ▸ List.mem_map_of_mem hc)
    rcases List.mem_cons.mp ha with rfl | hin
    · rw [List.filter_cons_of_pos (by simp), List.filter_eq_nil_iff.mpr fun c hc => by simpa using hne c hc]
    · rw [List.filter_cons_of_neg (by simpa using (hne a hin).symm), ih hrest hin]

/-- **Elements with increasing keys are their own tiers.** -/
theorem tiers_of_increasing (h : l.Pairwise fun a b => key a < key b) :
    tiers key image l = l.map fun a => {image a} := by
  have hpairwise : (l.map key).Pairwise (· < ·) := List.pairwise_map.mpr h
  have hnodup : (l.map key).Nodup := hpairwise.imp fun hlt => ne_of_lt hlt
  rw [tiers, (List.toFinset_sort (· ≤ ·) hnodup).mpr (hpairwise.imp fun hlt => le_of_lt hlt), List.map_map]
  refine List.map_congr_left fun a ha => ?_
  rw [Function.comp_apply, filter_key_eq_singleton hnodup ha]
  rfl

/-- Where each tier has one element, no two elements have one key. -/
theorem nodup_of_tiers (h : ∀ tier ∈ tiers key image l, tier.card = 1) : (l.map key).Nodup := by
  refine List.nodup_iff_count_le_one.mpr fun k => ?_
  by_cases hmem : k ∈ l.map key
  · have hcard := h _ (List.mem_map_of_mem ((Finset.mem_sort _).mpr (List.mem_toFinset.mpr hmem)))
    rw [Multiset.coe_card, List.length_map] at hcard
    rw [List.count_eq_countP, List.countP_map, List.countP_eq_length_filter]
    exact le_of_eq hcard
  · exact (List.count_eq_zero_of_not_mem hmem).le.trans (by decide)

/-- **Elements in an order that puts some last** are the others, and then those. -/
theorem eq_append_of_last {last : α → Bool} (h : l.Pairwise fun a b => last a ≤ last b) :
    l = (l.filter fun a => !last a) ++ l.filter last := by
  induction l with
  | nil => rfl
  | cons a l ih =>
    obtain ⟨hhead, htail⟩ := List.pairwise_cons.mp h
    cases hlast : last a with
    | false =>
      rw [List.filter_cons_of_pos (by simpa using hlast), List.filter_cons_of_neg (by simpa using hlast),
        List.cons_append, ← ih htail]
    | true =>
      have hall : ∀ b ∈ l, last b = true := fun b hb => hhead b hb hlast
      rw [List.filter_cons_of_neg (by simpa using hlast), List.filter_cons_of_pos hlast,
        List.filter_eq_nil_iff.mpr fun b hb => by simp [hall b hb], List.filter_eq_self.mpr hall, List.nil_append]

end Tiers
