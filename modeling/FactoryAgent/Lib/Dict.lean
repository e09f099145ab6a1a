import Mathlib.Data.List.Nodup

/-!
# Dictionaries

The dictionary of a program that keeps its keys in the order in which they came: setting a key that is there changes
its value in place, and setting a new one puts it at the end. No key comes twice, which is part of the type.
-/

/-- **A dictionary**, by its items in the order of insertion. -/
structure Dict (κ α : Type) where
  /-- The keys with their values. -/
  items : List (κ × α)
  nodup : (items.map Prod.fst).Nodup

namespace Dict

variable {κ α : Type} [DecidableEq κ]

/-- `{}` -/
def empty : Dict κ α := ⟨[], List.nodup_nil⟩

/-- `len(self)` -/
def length (dict : Dict κ α) : Nat :=
  dict.items.length

/-- `self.get(key)` -/
def get? (dict : Dict κ α) (key : κ) : Option α :=
  dict.items.lookup key

/-- The items that a test lets through. -/
def filter (p : κ × α → Bool) (dict : Dict κ α) : Dict κ α :=
  ⟨dict.items.filter p, dict.nodup.sublist (List.filter_sublist.map _)⟩

/-- The dictionary after `self.pop(key, None)` for each of some keys. -/
def without (dict : Dict κ α) (keys : List κ) : Dict κ α :=
  dict.filter fun item => decide (item.1 ∉ keys)

/-- The items after `self[key] = value`. -/
def setItems (key : κ) (value : α) : List (κ × α) → List (κ × α)
  | [] => [(key, value)]
  | item :: items => if item.1 = key then (key, value) :: items else item :: setItems key value items

/-- Setting a key adds it where it is new. -/
theorem mem_keys_setItems {key k : κ} {value : α} {items : List (κ × α)} :
    k ∈ (setItems key value items).map Prod.fst ↔ k = key ∨ k ∈ items.map Prod.fst := by
  induction items with
  | nil => simp [setItems]
  | cons item items ih =>
    rw [setItems]
    split_ifs with h
    · rw [List.map_cons, List.mem_cons, List.map_cons, List.mem_cons, h]
      exact ⟨fun hk => hk.imp_right .inr, fun hk => hk.elim .inl id⟩
    · rw [List.map_cons, List.mem_cons, ih, List.map_cons, List.mem_cons]
      exact or_left_comm

/-- `self[key] = value` -/
def set (dict : Dict κ α) (key : κ) (value : α) : Dict κ α where
  items := setItems key value dict.items
  nodup := by
    have h := dict.nodup
    revert h
    induction dict.items with
    | nil => exact fun _ => List.nodup_singleton key
    | cons item items ih =>
      intro h
      rw [List.map_cons, List.nodup_cons] at h
      rw [setItems]
      split_ifs with hkey
      · exact List.nodup_cons.mpr ⟨hkey ▸ h.1, h.2⟩
      · refine List.nodup_cons.mpr ⟨fun hmem => ?_, ih h.2⟩
        rcases mem_keys_setItems.mp hmem with heq | hitems
        · exact hkey heq
        · exact h.1 hitems

/-! ## What is read back -/

@[simp] theorem get?_empty (key : κ) : (empty : Dict κ α).get? key = none := rfl

/-- A key has a value where the item is there. -/
theorem get?_eq_some {dict : Dict κ α} {key : κ} {value : α} :
    dict.get? key = some value ↔ (key, value) ∈ dict.items := by
  obtain ⟨items, hnodup⟩ := dict
  show items.lookup key = some value ↔ (key, value) ∈ items
  induction items with
  | nil => simp
  | cons item items ih =>
    rw [List.map_cons, List.nodup_cons] at hnodup
    rw [List.lookup_cons, List.mem_cons]
    by_cases h : key = item.1
    · have hother : (key, value) ∉ items := fun hmem => hnodup.1 (h ▸ List.mem_map_of_mem (f := Prod.fst) hmem)
      rw [beq_iff_eq.mpr h]
      simp only [Option.some.injEq, hother, or_false]
      constructor
      · rintro rfl
        exact Prod.ext h rfl
      · intro heq
        exact (congrArg Prod.snd heq).symm
    · have hne : (key, value) ≠ item := fun heq => h (congrArg Prod.fst heq)
      rw [beq_eq_false_iff_ne.mpr h]
      simp only [hne, false_or]
      exact ih hnodup.2

/-- **The key that was set has the new value**, and the others what they had. -/
theorem get?_set (dict : Dict κ α) (key k : κ) (value : α) :
    (dict.set key value).get? k = if k = key then some value else dict.get? k := by
  show (setItems key value dict.items).lookup k = if k = key then some value else dict.items.lookup k
  induction dict.items with
  | nil =>
    rw [setItems, List.lookup_cons]
    by_cases h : k = key
    · rw [if_pos h, beq_iff_eq.mpr h]
    · rw [if_neg h, beq_eq_false_iff_ne.mpr h]
  | cons item items ih =>
    rw [setItems]
    split_ifs with hitem hk hk
    · rw [List.lookup_cons, beq_iff_eq.mpr hk]
    · rw [List.lookup_cons, List.lookup_cons, beq_eq_false_iff_ne.mpr hk, beq_eq_false_iff_ne.mpr (hitem ▸ hk)]
    · rw [List.lookup_cons, ih, if_pos hk, beq_eq_false_iff_ne.mpr fun heq => hitem (heq.symm.trans hk)]
    · rw [List.lookup_cons, List.lookup_cons, ih, if_neg hk]

/-- **A key has its value after filtering where its item passes.** -/
theorem get?_filter {dict : Dict κ α} {p : κ × α → Bool} {key : κ} {value : α} :
    (dict.filter p).get? key = some value ↔ dict.get? key = some value ∧ p (key, value) = true := by
  rw [get?_eq_some, get?_eq_some]
  exact List.mem_filter

/-- Without a key, it has no value. -/
theorem get?_without_singleton (dict : Dict κ α) (key k : κ) :
    (dict.without [key]).get? k = if k = key then none else dict.get? k := by
  apply Option.ext
  intro value
  rw [without, get?_filter, decide_eq_true_eq, List.mem_singleton]
  split_ifs with h
  · simp [h]
  · simp [h]

omit [DecidableEq κ] in
/-- Filtering adds no item. -/
theorem length_filter_le (dict : Dict κ α) (p : κ × α → Bool) : (dict.filter p).length ≤ dict.length :=
  List.length_filter_le _ _

/-- A new key is put at the end. -/
theorem items_set_of_fresh {dict : Dict κ α} {key : κ} (h : key ∉ dict.items.map Prod.fst) (value : α) :
    (dict.set key value).items = dict.items ++ [(key, value)] := by
  revert h
  show key ∉ dict.items.map Prod.fst → setItems key value dict.items = dict.items ++ [(key, value)]
  induction dict.items with
  | nil => exact fun _ => rfl
  | cons item items ih =>
    intro h
    rw [List.map_cons, List.mem_cons, not_or] at h
    rw [setItems, if_neg (Ne.symm h.1), ih h.2, List.cons_append]

/-- Setting a new key adds one item. -/
theorem length_set_of_none {dict : Dict κ α} {key : κ} (h : dict.get? key = none) (value : α) :
    (dict.set key value).length = dict.length + 1 := by
  revert h
  show dict.items.lookup key = none → (setItems key value dict.items).length = dict.items.length + 1
  induction dict.items with
  | nil => exact fun _ => rfl
  | cons item items ih =>
    intro h
    rw [List.lookup_cons] at h
    have hne : item.1 ≠ key := by
      rintro rfl
      rw [beq_self_eq_true] at h
      cases h
    rw [beq_eq_false_iff_ne.mpr hne.symm] at h
    rw [setItems, if_neg hne, List.length_cons, ih h, List.length_cons]

/-- **Without the keys of some of the items, the others are left.** -/
theorem items_without_perm {dict : Dict κ α} {victims rest : List (κ × α)}
    (h : dict.items.Perm (victims ++ rest)) : (dict.without (victims.map Prod.fst)).items.Perm rest := by
  have hnodup : ((victims ++ rest).map Prod.fst).Nodup := (h.map Prod.fst).nodup_iff.mp dict.nodup
  rw [List.map_append, List.nodup_append] at hnodup
  have hvictims : victims.filter (fun item => decide (item.1 ∉ victims.map Prod.fst)) = [] := by
    refine List.filter_eq_nil_iff.mpr fun item hitem => ?_
    rw [decide_eq_true_eq, not_not]
    exact List.mem_map_of_mem hitem
  have hrest : rest.filter (fun item => decide (item.1 ∉ victims.map Prod.fst)) = rest := by
    refine List.filter_eq_self.mpr fun item hitem => decide_eq_true fun hmem => ?_
    exact hnodup.2.2 _ hmem _ (List.mem_map_of_mem hitem) rfl
  have hfilter := h.filter fun item => decide (item.1 ∉ victims.map Prod.fst)
  rw [List.filter_append, hvictims, hrest, List.nil_append] at hfilter
  exact hfilter

end Dict
