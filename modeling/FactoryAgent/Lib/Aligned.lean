import Mathlib.Data.List.Forall2

/-!
# Lists that are aligned

What holds of two lists whose items are related one by one, in the sense of `List.Forall₂`.
-/

namespace Aligned

variable {α β γ : Type} {R S : α → β → Prop} {as : List α} {bs : List β}

/-- **A relation that follows for the items of the lists** relates them. -/
theorem mono (h : List.Forall₂ R as bs) (hmono : ∀ a ∈ as, ∀ b ∈ bs, R a b → S a b) : List.Forall₂ S as bs := by
  induction h with
  | nil => exact .nil
  | cons hab _ ih =>
    exact .cons (hmono _ List.mem_cons_self _ List.mem_cons_self hab)
      (ih fun a ha b hb => hmono a (List.mem_cons_of_mem _ ha) b (List.mem_cons_of_mem _ hb))

/-- **What the items have in common**, the lists do. -/
theorem map_eq {f : α → γ} {g : β → γ} (h : List.Forall₂ R as bs) (hmap : ∀ a ∈ as, ∀ b ∈ bs, R a b → f a = g b) :
    as.map f = bs.map g := by
  rw [← List.forall₂_eq_eq_eq, List.forall₂_map_left_iff, List.forall₂_map_right_iff]
  exact mono h hmap

/-- Lists with the same images are aligned. -/
theorem of_map_eq {f : α → γ} {g : β → γ} (h : as.map f = bs.map g) : List.Forall₂ (fun a b => f a = g b) as bs := by
  rw [← List.forall₂_eq_eq_eq, List.forall₂_map_left_iff, List.forall₂_map_right_iff] at h
  exact h

/-- Every item of the second list is aligned with one of the first. -/
theorem exists_left (h : List.Forall₂ R as bs) {b : β} (hb : b ∈ bs) : ∃ a ∈ as, R a b := by
  induction h with
  | nil => cases hb
  | cons hab _ ih =>
    rcases List.mem_cons.mp hb with rfl | hb
    · exact ⟨_, List.mem_cons_self, hab⟩
    · obtain ⟨a, ha, hab⟩ := ih hb
      exact ⟨a, List.mem_cons_of_mem _ ha, hab⟩

/-- Every item of the first list is aligned with one of the second. -/
theorem exists_right (h : List.Forall₂ R as bs) {a : α} (ha : a ∈ as) : ∃ b ∈ bs, R a b :=
  exists_left h.flip ha

end Aligned
