import Mathlib.Data.List.Dedup

/-!
# Lists with keys

What holds of a list whose elements have a key: where the keys are distinct an element is found by its key, and
the elements with each of the keys are, taken together, the list.
-/

namespace Keys

variable {α κ : Type} [DecidableEq κ]

/-- **An element is found by its key**, where the keys are distinct. -/
theorem find?_eq_some {key : α → κ} {l : List α} (h : (l.map key).Nodup) {a : α} (ha : a ∈ l) :
    l.find? (fun b => key b = key a) = some a := by
  induction l with
  | nil => exact absurd ha List.not_mem_nil
  | cons b l ih =>
    rw [List.map_cons, List.nodup_cons] at h
    rcases List.mem_cons.mp ha with rfl | ha
    · exact List.find?_cons_of_pos (decide_eq_true rfl)
    · have hne : key b ≠ key a := fun heq => h.1 (heq ▸ List.mem_map_of_mem ha)
      rw [List.find?_cons_of_neg (by simpa using hne), ih h.2 ha]

/-- **A value is found by its key**, where the keys are distinct. -/
theorem lookup_eq_some {l : List (κ × α)} (h : (l.map Prod.fst).Nodup) {k : κ} {a : α} (hmem : (k, a) ∈ l) :
    l.lookup k = some a := by
  induction l with
  | nil => exact absurd hmem List.not_mem_nil
  | cons pair l ih =>
    obtain ⟨k', a'⟩ := pair
    rw [List.map_cons, List.nodup_cons] at h
    rcases List.mem_cons.mp hmem with heq | hrest
    · obtain ⟨rfl, rfl⟩ := Prod.mk.inj heq
      exact List.lookup_cons_self
    · have hne : k ≠ k' := by
        rintro rfl
        exact h.1 (List.mem_map.mpr ⟨_, hrest, rfl⟩)
      rw [List.lookup_cons, beq_false_of_ne hne, ih h.2 hrest]

/-- At most one element has a given key, where the keys are distinct. -/
theorem length_filter_le_one {key : α → κ} {l : List α} (h : (l.map key).Nodup) (k : κ) :
    (l.filter fun a => key a = k).length ≤ 1 := by
  have hnodup : ((l.filter fun a => key a = k).map key).Nodup := h.sublist (List.filter_sublist.map key)
  rw [List.eq_replicate_of_mem (a := k) (l := (l.filter fun a => key a = k).map key), List.nodup_replicate,
    List.length_map] at hnodup
  · exact hnodup
  · intro c hc
    obtain ⟨a, ha, rfl⟩ := List.mem_map.mp hc
    simpa using (List.mem_filter.mp ha).2

/-- Splitting off the elements with one key. -/
theorem perm_filter_key (key : α → κ) (k : κ) (l : List α) :
    l.Perm (l.filter (fun a => key a = k) ++ l.filter fun a => key a ≠ k) := by
  simpa using (List.filter_append_perm (fun a => key a = k) l).symm

/-- **The elements with each of the keys are the list**, taken together, where every element has one of them. -/
theorem perm_flatMap_filter (key : α → κ) (keys : List κ) (hkeys : keys.Nodup) {l : List α}
    (h : ∀ a ∈ l, key a ∈ keys) : (keys.flatMap fun k => l.filter fun a => key a = k).Perm l := by
  induction keys generalizing l with
  | nil =>
    rw [List.eq_nil_iff_forall_not_mem.mpr fun a ha => absurd (h a ha) List.not_mem_nil]
    exact List.Perm.nil
  | cons k keys ih =>
    rw [List.nodup_cons] at hkeys
    have hrest : ∀ a ∈ l.filter fun a => key a ≠ k, key a ∈ keys := by
      intro a ha
      rw [List.mem_filter, decide_eq_true_eq] at ha
      exact (List.mem_cons.mp (h a ha.1)).resolve_left ha.2
    have hfilter : ∀ k' ∈ keys, (l.filter fun a => key a ≠ k).filter (fun a => key a = k')
        = l.filter fun a => key a = k' := by
      intro k' hk'
      rw [List.filter_filter]
      refine List.filter_congr fun a _ => ?_
      rw [Bool.eq_iff_iff, Bool.and_eq_true, decide_eq_true_eq, decide_eq_true_eq]
      exact ⟨fun hkey => hkey.1, fun hkey => ⟨hkey, fun heq => hkeys.1 (heq ▸ hkey ▸ hk')⟩⟩
    rw [List.flatMap_cons]
    refine (List.Perm.append_left _ ?_).trans (perm_filter_key key k l).symm
    rw [← List.flatMap_congr hfilter]
    exact ih hkeys.2 hrest

/-- The distinct elements of a list are distinct. -/
theorem nodup_eraseDups (l : List κ) : l.eraseDups.Nodup := by
  induction hn : l.length using Nat.strongRecOn generalizing l with
  | ind n ih =>
    cases l with
    | nil => exact List.nodup_nil
    | cons a l =>
      rw [List.eraseDups_cons, List.nodup_cons, List.mem_eraseDups, List.mem_filter]
      refine ⟨fun h => by simp at h, ih _ ?_ _ rfl⟩
      rw [← hn]
      exact Nat.lt_succ_of_le (List.length_filter_le _ l)

end Keys
